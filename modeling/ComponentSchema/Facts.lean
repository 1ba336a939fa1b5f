import ComponentSchema.View

/-!
# Type facts

The questions that classification and extraction ask about a program. `TypeFacts m` answers them
inside a monad `m`: a table of known facts answers in `Id`, a program that resolves its types on
demand answers in a state monad over the types made so far.
-/
namespace ComponentSchema

/-- Identity of a resolved type. -/
structure TypeId where
  index : Nat
  deriving DecidableEq, Repr, Inhabited

/-- Identity of a member of an object type. -/
structure MemberId where
  index : Nat
  deriving DecidableEq, Repr, Inhabited

/-- The symbol a type originates from, with the name of the namespace around it. -/
structure TypeSymbol where
  name : String
  parent : Option String
  deriving DecidableEq, Repr, Inhabited

/-- The name of a type that has no name of its own. -/
def anonymousTypeName : String := "__type"

/-- The symbol of a type that is written down where it is used. -/
def TypeSymbol.anonymous : TypeSymbol := ⟨anonymousTypeName, none⟩

/-- The symbol of `JSX.Element`. -/
def TypeSymbol.jsxElement : TypeSymbol := ⟨"Element", some "JSX"⟩

/-- What is documented about a symbol. -/
structure SymbolDoc where
  name : String
  documentation : String
  typeText : String
  deriving DecidableEq, Repr, Inhabited

/-- What is documented about a construct signature. -/
structure SignatureDoc where
  parameters : List SymbolDoc
  returnType : String
  documentation : String
  deriving DecidableEq, Repr, Inhabited

/-- The queries that a program answers. An absent answer means that the program does not know: a
name that leads nowhere, a missing annotation. Mirrors the `TypeFacts` interface. -/
structure TypeFacts (m : Type → Type) where
  /-- The source files, in the order in which they are documented. -/
  files : List SourceFile
  /-- The return type of a call signature, annotated or inferred. -/
  returnType : FunctionLike → m (Option TypeId)
  /-- The type that an annotation denotes. -/
  typeOf : TypeNode → m (Option TypeId)
  /-- The symbol that a type was declared through. -/
  symbol : TypeId → m (Option TypeSymbol)
  /-- The type alias that a type was made by. -/
  aliasName : TypeId → m (Option String)
  /-- The keyword of an intrinsic type. -/
  intrinsicName : TypeId → m (Option String)
  /-- The members of a type, in declaration order. -/
  members : TypeId → m (List MemberId)
  memberName : MemberId → m String
  memberType : MemberId → m (Option TypeId)
  memberOptional : MemberId → m Bool
  /-- The documented symbol of a class. -/
  classSymbol : ClassDeclaration → Option SymbolDoc
  /-- The documented construct signatures of a class. -/
  constructSignatures : ClassDeclaration → List SignatureDoc
  /-- How many types with an alias name there are at most. -/
  aliasBound : Nat

end ComponentSchema
