import CodeSurvey.Text.Blank
import CodeSurvey.Text.Case

/-!
# Languages

The languages whose source can be surveyed, their spellings, and what they have in common.
`Language.resolve?` is the one place where a spelling becomes a language.
-/

namespace CodeSurvey

/-- A language whose source can be surveyed. The two markup dialects are languages of their own. -/
inductive Language where
  | javascript
  | typescript
  | jsx
  | tsx
  | python
  | java
  | csharp
deriving DecidableEq, Repr

namespace Language

/-- Every language, in the order in which they are listed. -/
def all : List Language :=
  [javascript, typescript, jsx, tsx, python, java, csharp]

/-- The identifier of a language. -/
def id : Language → String
  | javascript => "javascript"
  | typescript => "typescript"
  | jsx => "javascriptreact"
  | tsx => "typescriptreact"
  | python => "python"
  | java => "java"
  | csharp => "csharp"

/-- The short name of a language among its relatives. -/
def familyName : Language → String
  | javascript => "javascript"
  | typescript => "typescript"
  | jsx => "jsx"
  | tsx => "tsx"
  | python => "python"
  | java => "java"
  | csharp => "csharp"

/-- The other accepted spellings, each with the identifier it stands for. -/
def aliases : List (String × String) :=
  [("js", "javascript"), ("ts", "typescript"), ("jsx", "javascriptreact"),
    ("tsx", "typescriptreact"), ("py", "python"), ("c#", "csharp"), ("cs", "csharp"),
    ("c_sharp", "csharp")]

/-- The language of an identifier. -/
def ofId? (s : String) : Option Language :=
  all.find? (·.id = s)

/-- The language of a short name. -/
def ofFamilyName? (s : String) : Option Language :=
  all.find? (·.familyName = s)

/-- A spelling without blanks around it and in lower case. -/
def normalized (spelling : Text) : Text :=
  Text.lower (Text.trim spelling)

/-- The language a spelling stands for: an identifier or an alias, in any case, with any blanks
around it. -/
def resolve? (spelling : Text) : Option Language :=
  let key := String.ofList (normalized spelling)
  ofId? ((aliases.lookup key).getD key)

/-- The dialects of one scripting language. -/
def isScript : Language → Bool
  | javascript | typescript | jsx | tsx => true
  | _ => false

/-- The dialects with type annotations. -/
def hasTypes : Language → Bool
  | typescript | tsx => true
  | _ => false

/-- The dialects with markup elements. -/
def hasMarkup : Language → Bool
  | jsx | tsx => true
  | _ => false

/-- Blocks are enclosed in braces, rather than told by indentation. -/
def usesBraces : Language → Bool
  | python => false
  | _ => true

/-- A declaration names its type before its name. -/
def typeFirst : Language → Bool
  | java | csharp => true
  | _ => false

end Language

end CodeSurvey
