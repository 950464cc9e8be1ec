/-! Declaring places. Two constraints of one place on one path are the same declaration. -/

namespace Vetting

/-- The ready-made rules; each is a declaring place of its own, whatever it is applied to. -/
inductive RuleName where
  | empty
  | nonempty
  | lengthEqualTo
  | lengthLowerThan
  | lengthAtMost
  | lengthGreaterThan
  | lengthAtLeast
  | lengthBetween
  | notBlank
  | matching
  | startsWith
  | endsWith
  | containing
  | lowerThan
  | atMost
  | greaterThan
  | atLeast
  | between
  | positive
  | negative
  | equalTo
  | differentFrom
  | absent
  | present
deriving DecidableEq, Repr

inductive Form where
  | always
  | ifPresent
  | fallible
  | suspending
deriving DecidableEq, Repr

inductive Origin where
  | rule (name : RuleName)
  | site (form : Form) (number : Nat)
deriving DecidableEq, Repr

end Vetting
