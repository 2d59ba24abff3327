import CodeSurvey.Config.Field
import CodeSurvey.Json.Basic

/-!
# Loaders

A configuration file is read and validated by others: one who reads a document from a file, and one
who validates the entries of a dictionary by the declared fields. A loader is the two of them
together, and `Loader.Lawful` says what is expected of them.
-/

namespace CodeSurvey

/-- An exception, by its class and its message. -/
structure Raised where
  className : String
  message : Text
deriving DecidableEq, Repr

/-- Why a file cannot be read to its end. -/
inductive StreamFault where
  /-- The system fails. -/
  | system (message : Text)
  /-- The bytes are no text. -/
  | encoding (message : Text)
deriving DecidableEq, Repr

/-- An open file: the text that can be read, and what fails behind it. -/
structure Stream where
  content : Text
  fault : Option StreamFault
deriving DecidableEq, Repr

/-- The file with a line feed at the end of every line. -/
def Stream.withLineFeeds (s : Stream) : Stream :=
  { s with content := Text.withLineFeeds s.content }

/-- Why there is no document in a file. -/
inductive ReadFault where
  /-- It breaks the rules of its format. -/
  | malformed (message : Text)
  /-- The system fails. -/
  | system (message : Text)
  /-- Any other exception. -/
  | other (e : Raised)
deriving DecidableEq, Repr

/-- What comes of reading on where a file fails. -/
def StreamFault.toReadFault : StreamFault → ReadFault
  | system message => .system message
  | encoding message => .other ⟨"UnicodeDecodeError", message⟩

/-- The key of an entry. -/
inductive Key where
  | text (name : Symbols)
  | other
deriving DecidableEq, Repr

/-- A document, as far as it matters what it is. -/
inductive Loaded (ν : Type) where
  | nothing
  | dictionary (entries : List (Key × ν))
  | other

/-- What an attempt to validate is turned down with. -/
structure Rejection where
  message : Text
  errors : List Json

/-- One who reads documents and one who validates their entries. -/
structure Loader where
  /-- The values in a document. -/
  Value : Type
  read : Stream → Except ReadFault (Loaded Value)
  validate : (fields : List Field) → List (Symbols × Value) → Except Rejection (Values fields)

/-- What is expected of a loader. Whatever the fields are, a validated value is allowed where it is
given and the standard one elsewhere, which need not be an allowed one. -/
structure Loader.Lawful (loader : Loader) : Prop where
  /-- A file that fails behind some text has no document: either its fault is met, or something is
  raised before, whatever the fault. -/
  read_fault : ∀ content fault, loader.read ⟨content, some fault⟩ = .error fault.toReadFault ∨
    ∃ e, ∀ other, loader.read ⟨content, some other⟩ = .error e
  /-- A value that is given is allowed. -/
  allowed : ∀ fields entries values, loader.validate fields entries = .ok values →
    Values.All (fun f value => f.IsGiven entries → f.kind.Allows value) fields values
  /-- A value that is not given is the standard one. -/
  standard : ∀ fields entries values, loader.validate fields entries = .ok values →
    Values.All (fun f value => ¬ f.IsGiven entries → value = f.kind.standardValue) fields values
  /-- No entry may give anything else. -/
  declared : ∀ fields entries values, loader.validate fields entries = .ok values →
    ∀ e ∈ entries, ∃ f ∈ fields, e.1 = Symbols.ofText f.name.toList

end CodeSurvey
