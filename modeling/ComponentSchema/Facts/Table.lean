import ComponentSchema.Facts

/-!
# Tables of facts

Type facts that are written down in advance: rows addressed by their ids. A row that is not there
answers like one in which nothing is filled in. The number of types is finite, so the alias bound is
the number of rows that have an alias name.
-/
namespace ComponentSchema

structure TypeRow where
  symbol : Option TypeSymbol
  aliasName : Option String
  intrinsicName : Option String
  members : List MemberId
  deriving DecidableEq, Repr, Inhabited

structure MemberRow where
  name : String
  type : Option TypeId
  optional : Bool
  deriving DecidableEq, Repr, Inhabited

structure ClassRow where
  symbol : Option SymbolDoc
  constructors : List SignatureDoc
  deriving DecidableEq, Repr, Inhabited

structure FactTable where
  files : List SourceFile
  types : Array TypeRow
  members : Array MemberRow
  /-- The type that each function returns. -/
  returns : Array (Option TypeId)
  /-- The type that each annotation denotes. -/
  nodes : Array (Option TypeId)
  classes : Array ClassRow

namespace FactTable

/-- The row of a type. -/
def typeRow (table : FactTable) (type : TypeId) : TypeRow :=
  (table.types[type.index]?).getD ⟨none, none, none, []⟩

/-- The row of a member. -/
def memberRow (table : FactTable) (member : MemberId) : MemberRow :=
  (table.members[member.index]?).getD ⟨"", none, false⟩

/-- The row of a class. -/
def classRow (table : FactTable) (id : ClassId) : ClassRow :=
  (table.classes[id.index]?).getD ⟨none, []⟩

/-- The answers that a table gives. -/
def facts (table : FactTable) : TypeFacts Id where
  files := table.files
  returnType signature := (table.returns[signature.id.index]?).join
  typeOf node := (table.nodes[node.id.index]?).join
  symbol type := (table.typeRow type).symbol
  aliasName type := (table.typeRow type).aliasName
  intrinsicName type := (table.typeRow type).intrinsicName
  members type := (table.typeRow type).members
  memberName member := (table.memberRow member).name
  memberType member := (table.memberRow member).type
  memberOptional member := (table.memberRow member).optional
  classSymbol declaration := (table.classRow declaration.id).symbol
  constructSignatures declaration := (table.classRow declaration.id).constructors
  aliasBound := table.types.countP fun row => row.aliasName.isSome

end FactTable

end ComponentSchema
