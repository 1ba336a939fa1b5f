import ComponentSchema.Program.Types

/-!
# Induction along resolution

When a type expression is resolved, so is what stands in its parentheses, the one part of a union that is
not dropped from it, or each part of an intersection. Nothing else in it is: a union of which several parts
are kept is a type of its own, and so is a function type.

Whatever is shown of a type expression that is resolved is shown by induction along this
(`TypeExpr.resolutionRec`).

Results.
* `TypeExpr.resolutionRec`: the induction.
* `ofSingle_eq`: what is asked of the parts of a union until one is kept.
* `Resolve.resolveWith_single`, `Resolve.resolveWith_several`, `Resolve.resolveParts_cons`: resolution, in
  the terms of the induction.
-/
namespace ComponentSchema

open Syntax

/-- What is asked of the first part of a union that is not dropped from it. -/
theorem Syntax.ofSingle_eq {α : Type} {ofSingle : List TypeExpr → α} {ofPart : TypeExpr → α}
    (hcons : ∀ part rest, ofSingle (part :: rest) =
      if Resolve.isNullish part then ofSingle rest else ofPart part)
    {parts rest : List TypeExpr} {part : TypeExpr}
    (h : (parts.filter fun part => !Resolve.isNullish part) = part :: rest) :
    ofSingle parts = ofPart part := by
  induction parts with
  | nil => cases h
  | cons first others ih =>
    rw [hcons]
    cases hnull : Resolve.isNullish first with
    | true =>
      rw [List.filter_cons_of_neg (by simp [hnull])] at h
      exact ih h
    | false =>
      rw [List.filter_cons_of_pos (by simp [hnull])] at h
      obtain ⟨rfl, -⟩ := List.cons.inj h
      rfl

/-- The one part of a union that is not dropped from it. -/
theorem Syntax.exists_single {parts : List TypeExpr}
    (h : (parts.filter fun part => !Resolve.isNullish part).length = 1) :
    ∃ part ∈ parts, (parts.filter fun part => !Resolve.isNullish part) = [part] := by
  obtain ⟨part, hpart⟩ := List.length_eq_one_iff.1 h
  have hmem : part ∈ parts.filter fun part => !Resolve.isNullish part := by simp [hpart]
  exact ⟨part, (List.mem_filter.1 hmem).1, hpart⟩

/-- By induction on what is resolved of a type expression. -/
@[elab_as_elim]
theorem Syntax.TypeExpr.resolutionRec {motive : TypeExpr → Prop}
    (keyword : ∀ keyword, motive (.keyword keyword))
    (parenthesized : ∀ inner, motive inner → motive (.parenthesized inner))
    (reference : ∀ name, motive (.reference name))
    (literal : ∀ members, motive (.literal members))
    (single : ∀ parts part, (parts.filter fun part => !Resolve.isNullish part) = [part] →
      motive part → motive (.union parts))
    (several : ∀ parts, (parts.filter fun part => !Resolve.isNullish part).length ≠ 1 →
      motive (.union parts))
    (intersection : ∀ parts, (∀ part ∈ parts, motive part) → motive (.intersection parts))
    (function : ∀ parameters returnType, motive (.function parameters returnType))
    (constructor : motive .constructor) (other : motive .other) : ∀ type, motive type
  | .keyword word => keyword word
  | .parenthesized inner => parenthesized inner (resolutionRec keyword parenthesized reference literal
      single several intersection function constructor other inner)
  | .reference name => reference name
  | .literal members => literal members
  | .union parts => by
    by_cases hlength : (parts.filter fun part => !Resolve.isNullish part).length = 1
    · obtain ⟨part, hmem, hpart⟩ := exists_single hlength
      exact single parts part hpart (resolutionRec keyword parenthesized reference literal
        single several intersection function constructor other part)
    · exact several parts hlength
  | .intersection parts => intersection parts fun part hmem => resolutionRec keyword parenthesized
      reference literal single several intersection function constructor other part
  | .function parameters returnType => function parameters returnType
  | .constructor => constructor
  | .other => other

namespace Resolve

variable {index : Index} {declared : DeclId → Resolve (Option TypeId)} {scope : ScopeId}
  {parts : List TypeExpr} {part : TypeExpr}

/-- Of a union of which one part is kept, that part is resolved. -/
theorem resolveWith_single (h : (parts.filter fun part => !isNullish part) = [part])
    (aliasName : Option String) : resolveWith index declared scope aliasName (.union parts) =
      resolveWith index declared scope none part := by
  have hparts : resolveSingle index declared scope parts = resolveWith index declared scope none part :=
    ofSingle_eq (fun _ _ => rfl) h
  rw [resolveWith, if_pos (by simp [h]), hparts]

/-- Any other union is a type of its own. -/
theorem resolveWith_several (h : (parts.filter fun part => !isNullish part).length ≠ 1)
    (aliasName : Option String) : resolveWith index declared scope aliasName (.union parts) =
      some <$> push { TypeData.blank with aliasName } := by
  rw [resolveWith, if_neg (by simpa using h)]

/-- The parts of an intersection are resolved one after the other. -/
theorem resolveParts_cons (part : TypeExpr) (rest : List TypeExpr) :
    resolveParts index declared scope (part :: rest) =
      resolveWith index declared scope none part >>= fun type =>
        resolveParts index declared scope rest >>= fun types => pure (type.toList ++ types) := by
  rw [resolveParts]
  refine bind_congr fun type => ?_
  cases type with
  | none => exact (bind_pure _).symm
  | some type => rfl

end Resolve

end ComponentSchema
