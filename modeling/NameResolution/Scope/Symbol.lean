/-!
# Symbols — what an identifier was declared to be

Two declarations may mean the same and still introduce two symbols. So a symbol has a meaning, and
an origin that tells it from all others: the scope and the name that it is declared under, of which
there is one declaration only. One symbol, `Symbol.undefined`, stands for every use of a name that
nothing declares.
-/

namespace NameResolution

/-- The number of a scope in the store of a symbol table. -/
abbrev ScopeId := Nat

/-- The kinds of symbols. -/
inductive Category where
  | regular
  | function
  | formal
  | structDecl
  | structVar
  | undefined
deriving DecidableEq, Repr

/-- The word for a category. -/
def Category.text : Category → String
  | regular => "regular"
  | function => "function"
  | formal => "formal"
  | structDecl => "struct-decl"
  | structVar => "struct-var"
  | undefined => "undefined"

/-! ## Meanings -/

/-- What a declaration says about its name. -/
inductive Meaning where
  /-- A variable or field of a basic type. -/
  | regular (type : String)
  /-- A formal parameter. -/
  | formal (type : String)
  /-- A function with its result type and the types of its parameters. -/
  | function (result : String) (params : List String)
  /-- A struct; `fields` is the scope of its fields. -/
  | structDecl (fields : ScopeId)
  /-- A variable or field of the type `struct name`. -/
  | structVar (name : String)
  /-- Nothing: the name is not declared. -/
  | undefined
  /-- A symbol of which nothing but the category is known. -/
  | bare (category : Category)
deriving DecidableEq, Repr

namespace Meaning

/-- The kind of a meaning. -/
def category : Meaning → Category
  | regular _ => .regular
  | formal _ => .formal
  | function _ _ => .function
  | structDecl _ => .structDecl
  | structVar _ => .structVar
  | undefined => .undefined
  | bare category => category

/-- The type of what is named, as far as it has one. -/
def type? : Meaning → Option String
  | regular type => some type
  | formal type => some type
  | function _ _ => some "function"
  | structDecl _ => some "struct-decl"
  | structVar name => some name
  | undefined => none
  | bare _ => none

/-- The result type of a function. -/
def result? : Meaning → Option String
  | function result _ => some result
  | _ => none

/-- The parameter types of a function; nothing else has parameters. -/
def params : Meaning → List String
  | function _ params => params
  | _ => []

/-- The name of the struct that a struct variable is made of. -/
def struct? : Meaning → Option String
  | structVar name => some name
  | _ => none

/-- The scope of a struct's fields. -/
def fields? : Meaning → Option ScopeId
  | structDecl fields => some fields
  | _ => none

/-- The signature of a function; parameters that leave nothing to write are written `void`. -/
def signature (result : String) (params : List String) : String :=
  let list := ", ".intercalate params
  (if list.isEmpty then "void" else list) ++ " -> " ++ result

/-- The meaning as it is shown after a name. -/
def text (m : Meaning) : String :=
  match m.category with
  | .function => signature (m.result?.getD "None") m.params
  | .undefined => "undefined"
  | _ => m.type?.getD ""

end Meaning

/-! ## Symbols -/

/-- Where a symbol comes from. -/
inductive Origin where
  /-- The declaration of a name in a scope. -/
  | declared (scope : ScopeId) (name : String)
  /-- No declaration; symbols of their own are told apart by numbers. -/
  | free (number : Nat)
deriving DecidableEq, Repr

/-- A meaning that is introduced in one place. -/
structure Symbol where
  origin : Origin
  meaning : Meaning
deriving DecidableEq, Repr

namespace Symbol

/-- The symbol that stands for every name that is not declared. -/
def undefined : Symbol := ⟨.free 0, .undefined⟩

/-- The kind of a symbol. -/
def category (s : Symbol) : Category := s.meaning.category

/-- Whether the symbol stands for an undeclared name. -/
def isUndefined (s : Symbol) : Bool := s.category = .undefined

/-- Whether the symbol is that of a struct. -/
def isStructDecl (s : Symbol) : Bool := s.category = .structDecl

/-- Whether the symbol is that of a variable or field whose type is a struct. -/
def isStructVar (s : Symbol) : Bool := s.category = .structVar

/-- Whether the symbol is that of a formal parameter. -/
def isFormal (s : Symbol) : Bool := s.category = .formal

/-- The symbol as it is shown after a name. -/
def text (s : Symbol) : String := s.meaning.text

end Symbol

end NameResolution
