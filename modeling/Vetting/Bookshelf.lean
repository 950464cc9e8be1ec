import Vetting.Accessor
import Vetting.Rule.Basic

/-! Rules for a book that may be missing, declared through the accessors of its record and of its
author's. -/

namespace Vetting.Bookshelf

structure Author where
  name : String
  email : Option String

structure Book where
  title : String
  pages : Nat
  author : Option Author
  tags : List String

namespace Author

def nameField : Accessor Author String := ⟨"name", name⟩

def emailField : Accessor Author (Option String) := ⟨"email", email⟩

end Author

namespace Book

def titleField : Accessor Book String := ⟨"title", title⟩

def pagesField : Accessor Book Nat := ⟨"pages", pages⟩

def authorField : Accessor Book (Option Author) := ⟨"author", author⟩

def tagsField : Accessor Book (List String) := ⟨"tags", tags⟩

end Book

def pageCount (n : Nat) : Value := .integer ⟨false, 32⟩ n

def tagList (tags : List String) : Value := .sequence (tags.map .text)

def required {α : Type} (n : Node α) (f : α → Value) : Node Content := n.map fun a => .plain (f a)

def nullable {α : Type} (n : Node (Option α)) (f : α → Value) : Node Content :=
  n.map fun a => .optional (a.map f)

structure BookNodes where
  title : Node Content
  pages : Node Content
  tags : Node Content
  authorName : Node Content
  authorEmail : Node Content

def BookNodes.toList (b : BookNodes) : List (Node Content) :=
  [b.title, b.pages, b.tags, b.authorName, b.authorEmail]

def bookNodes (root : Node (Option Book)) : BookNodes :=
  let book := root.field "book" id
  let author := (Book.authorField.nullable book).flatten
  { title := nullable (Book.titleField.nullable book) .text
    pages := nullable (Book.pagesField.nullable book) pageCount
    tags := nullable (Book.tagsField.nullable book) tagList
    authorName := nullable (Author.nameField.nullable author) .text
    authorEmail := nullable (Author.emailField.nullable author).flatten .text }

def declareNullable (b : BookNodes) : Registry Unit := do
  let _ ← b.title.apply (.content .notBlank)
  let _ ← b.pages.apply (.order (.between (.int 1) (.int 2000)))
  let _ ← b.tags.apply (.length (.bounded .atMost 2))
  let _ ← b.authorName.apply (.length (.bounded .atLeast 2))
  let _ ← b.authorEmail.apply (.content (.containing "@"))

def declareAuthor (author : Node Author) : Registry Unit := do
  let name := required (Author.nameField.node author) .text
  let email := nullable (Author.emailField.node author) .text
  let _ ← name.apply (.content (.startsWith "A"))
  let _ ← email.apply .present

def plainAuthor (book : Node Book) : Option (Node Author) :=
  book.value.author.map fun author => book.derive (some "author") author

def declarePlain (book : Node Book) : Registry Unit := do
  let title := required (Book.titleField.node book) .text
  let pages := required (Book.pagesField.node book) pageCount
  let _ ← title.apply (.length .nonempty)
  let _ ← pages.apply (.order (.greaterThan (.int 10)))
  for tag in (Book.tagsField.node book).elements do
    let _ ← (required tag .text).apply (.content .notBlank)
  match plainAuthor book with
  | some author => declareAuthor author
  | none => pure ()

def plainNodes (book : Node Book) : List (Node Content) :=
  required (Book.titleField.node book) .text ::
    ((plainAuthor book).map fun author => nullable (Author.emailField.node author) .text).toList

structure Inspection where
  nodes : List (Node Content)
  report : Option Report

/-- Applies the rules; a strict inspection looks at the book's own record too, if there is one. -/
def inspect (book : Option Book) (strict : Bool) : Inspection :=
  let (run, runs) := Runs.none.start
  let root : Node (Option Book) := ⟨book, .root, run⟩
  let nodes := bookNodes root
  let plain := if strict then book.map (root.derive none) else none
  let declared := do
    declareNullable nodes
    match plain with
    | some n => declarePlain n
    | none => pure ()
  let runs := ((ExceptT.run declared).run runs).2
  let violations := (runs.complete run Configuration.standard.defaultMessage).1
  ⟨nodes.toList ++ (plain.map plainNodes).getD [], Report.ofList? violations⟩

end Vetting.Bookshelf
