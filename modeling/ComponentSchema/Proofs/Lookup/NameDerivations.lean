import ComponentSchema.Proofs.Binder.IndexChanges

/-!
# What names lead to

A name leads to a declaration if there is a derivation: through namespaces, or through an import and
then from export to export. There may be circles among the exports, so a derivation counts how often a
module has been entered and an export followed to the local name behind it; it goes no deeper than
`maxExportDepth`.

A search tries one branch after the other, and gives up those that go too deep. No branch that is given
up hides a derivation of another.

Results.
* `lookupIn_isSome_iff`, `lookupExport_isSome_iff`: something is found in a scope, or among the exports
  of a module, just if there is a derivation.
* `Modules.lookup_derives`: the same for names as they are looked up, from a scope outward.
* `lookupExport_starChain`: what is found through star exports is an export entry of its own name.
* `Modules.lookup_starDefault`: the default export of a module is found through star exports too.
-/
namespace ComponentSchema

open Syntax

/-- How deep a derivation goes at most. -/
def maxExportDepth : Nat := 32

theorem exportBudget_eq : exportBudget = maxExportDepth + 1 := rfl

/-- Where a derivation may still go on, a search may too. -/
theorem exists_budget {budget depth : Nat} (h : budget + depth = exportBudget)
    (hdepth : depth ≤ maxExportDepth) :
    ∃ less, budget = less + 1 ∧ less + (depth + 1) = exportBudget := by
  rw [exportBudget_eq] at h ⊢
  exact ⟨budget - 1, by omega, by omega⟩

namespace Index

/-! ## Derivations -/

section

variable (index : Index)

/-- A name leads to a declaration inside a scope: to a type there, or to one in namespaces that are
nested there. -/
inductive Holds : ScopeId → List String → DeclId → Prop where
  | type {x : ScopeId} {name : String} {d : DeclId}
    (htype : (index.scope x).types.lookup name = some d) : Holds x [name] d
  | nested {x inner : ScopeId} {name next : String} {rest : List String} {d : DeclId}
    (hinner : (index.scope x).namespaces.lookup name = some inner)
    (hrest : Holds inner (next :: rest) d) : Holds x (name :: next :: rest) d

mutual

/-- A name leads to a declaration from a scope that was come to at some depth. -/
inductive Derives : Nat → ScopeId → List String → DeclId → Prop where
  | declared {depth : Nat} {x : ScopeId} {segments : List String} {d : DeclId}
    (hholds : index.Holds x segments d) : Derives depth x segments d
  | named {depth : Nat} {x : ScopeId} {first name : String} {rest : List String} {g : ModuleId}
    {d : DeclId} (himport : (index.scope x).imports.lookup first = some (.named g name))
    (hexport : DerivesExport (depth + 1) g name rest d) : Derives depth x (first :: rest) d
  | all {depth : Nat} {x : ScopeId} {first name : String} {rest : List String} {g : ModuleId}
    {d : DeclId} (himport : (index.scope x).imports.lookup first = some (.all g))
    (hexport : DerivesExport (depth + 1) g name rest d) : Derives depth x (first :: name :: rest) d

/-- An export of a module that is entered at some depth leads to a declaration, by its own entry if
there is one, and otherwise by a star export. -/
inductive DerivesExport : Nat → ModuleId → String → List String → DeclId → Prop where
  | own {depth : Nat} {g : ModuleId} {name localName : String} {rest : List String} {d : DeclId}
    (hdepth : depth ≤ maxExportDepth)
    (hentry : (index.scope (index.moduleScope g)).exports.lookup name = some (.own localName))
    (hlocal : Derives (depth + 1) (index.moduleScope g) (localName :: rest) d) :
    DerivesExport depth g name rest d
  | reexport {depth : Nat} {g h : ModuleId} {name original : String} {rest : List String} {d : DeclId}
    (hdepth : depth ≤ maxExportDepth)
    (hentry : (index.scope (index.moduleScope g)).exports.lookup name = some (.reexport h original))
    (hexport : DerivesExport (depth + 1) h original rest d) : DerivesExport depth g name rest d
  | all {depth : Nat} {g h : ModuleId} {name next : String} {rest : List String} {d : DeclId}
    (hdepth : depth ≤ maxExportDepth)
    (hentry : (index.scope (index.moduleScope g)).exports.lookup name = some (.all h))
    (hexport : DerivesExport (depth + 1) h next rest d) : DerivesExport depth g name (next :: rest) d
  | star {depth : Nat} {g h : ModuleId} {name : String} {rest : List String} {d : DeclId}
    (hdepth : depth ≤ maxExportDepth)
    (hentry : (index.scope (index.moduleScope g)).exports.lookup name = none)
    (hstar : h ∈ (index.scope (index.moduleScope g)).starExports)
    (hexport : DerivesExport (depth + 1) h name rest d) : DerivesExport depth g name rest d

end

end

variable {index : Index} {x : ScopeId} {g : ModuleId} {name : String} {segments rest : List String}
  {d : DeclId} {budget depth : Nat}

theorem DerivesExport.depth_le (h : index.DerivesExport depth g name rest d) :
    depth ≤ maxExportDepth := by
  cases h <;> assumption

theorem holds_iff : index.Holds x segments d ↔ index.lookupQualified x segments = some d := by
  constructor
  · intro h
    induction h with
    | type htype => exact htype
    | nested hinner _ ih =>
      rw [lookupQualified, hinner]
      · exact ih
      · simp
  · intro h
    induction segments generalizing x with
    | nil => cases h
    | cons name rest ih =>
      rcases rest with _ | ⟨next, rest⟩
      · exact .type h
      · rw [lookupQualified] at h
        · split at h
          · rename_i inner hinner
            exact .nested hinner (ih h)
          · cases h
        · simp

/-! ## Searches -/

mutual

theorem derives_of_lookupIn : ∀ {budget depth : Nat} {x : ScopeId} {segments : List String}
    {d : DeclId}, budget + depth = exportBudget → index.lookupIn budget x segments = some d →
      index.Derives depth x segments d
  | 0, depth, x, segments, d, _, h => by
    rw [lookupIn, lookupDeclared_eq] at h
    exact .declared (holds_iff.2 h)
  | budget + 1, depth, x, segments, d, hdepth, h => by
    simp only [lookupIn, lookupDeclared_eq] at h
    split at h
    · rename_i found hfound
      obtain rfl := Option.some.inj h
      exact .declared (holds_iff.2 hfound)
    · split at h
      · cases h
      · split at h
        · rename_i himport
          exact .named himport (derivesExport_of_lookupExport (by omega) h)
        · rename_i himport
          split at h
          · cases h
          · exact .all himport (derivesExport_of_lookupExport (by omega) h)
        · cases h

theorem derivesExport_of_lookupExport : ∀ {budget depth : Nat} {g : ModuleId} {name : String}
    {rest : List String} {d : DeclId}, budget + depth = exportBudget →
      index.lookupExport budget g name rest = some d → index.DerivesExport depth g name rest d
  | 0, depth, g, name, rest, d, _, h => by
    rw [lookupExport] at h
    cases h
  | budget + 1, depth, g, name, rest, d, hdepth, h => by
    have hle : depth ≤ maxExportDepth := by
      rw [exportBudget_eq] at hdepth
      omega
    simp only [lookupExport] at h
    split at h
    · rename_i hentry
      exact .own hle hentry (derives_of_lookupIn (by omega) h)
    · rename_i hentry
      exact .reexport hle hentry (derivesExport_of_lookupExport (by omega) h)
    · rename_i hentry
      split at h
      · cases h
      · exact .all hle hentry (derivesExport_of_lookupExport (by omega) h)
    · rename_i hentry
      obtain ⟨star, hstar, hfound⟩ := List.exists_of_findSome?_eq_some h
      exact .star hle hentry hstar (derivesExport_of_lookupExport (by omega) hfound)

end

mutual

/-- Where something is declared a search ends with it, though it may not be what was derived. -/
theorem Derives.isSome : ∀ {depth : Nat} {x : ScopeId} {segments : List String} {d : DeclId},
    index.Derives depth x segments d → ∀ {budget : Nat}, budget + depth = exportBudget →
      (index.lookupIn budget x segments).isSome = true
  | _, _, _, _, .declared hholds, budget, _ => by
    rw [holds_iff, ← lookupDeclared_eq] at hholds
    cases budget <;> simp [lookupIn, hholds]
  | depth, x, _, _, .named himport hexport, budget, hbudget => by
    obtain ⟨budget, rfl, hbelow⟩ := exists_budget hbudget (Nat.le_of_succ_le hexport.depth_le)
    simp only [lookupIn]
    split
    · rfl
    · simp only [himport]
      exact hexport.isSome hbelow
  | depth, x, _, _, .all himport hexport, budget, hbudget => by
    obtain ⟨budget, rfl, hbelow⟩ := exists_budget hbudget (Nat.le_of_succ_le hexport.depth_le)
    simp only [lookupIn]
    split
    · rfl
    · simp only [himport]
      exact hexport.isSome hbelow

theorem DerivesExport.isSome : ∀ {depth : Nat} {g : ModuleId} {name : String} {rest : List String}
    {d : DeclId}, index.DerivesExport depth g name rest d → ∀ {budget : Nat},
      budget + depth = exportBudget → (index.lookupExport budget g name rest).isSome = true
  | depth, g, name, rest, _, .own hdepth hentry hlocal, budget, hbudget => by
    obtain ⟨budget, rfl, hbelow⟩ := exists_budget hbudget hdepth
    simp only [lookupExport, hentry]
    exact hlocal.isSome hbelow
  | depth, g, name, rest, _, .reexport hdepth hentry hexport, budget, hbudget => by
    obtain ⟨budget, rfl, hbelow⟩ := exists_budget hbudget hdepth
    simp only [lookupExport, hentry]
    exact hexport.isSome hbelow
  | depth, g, name, _, _, .all hdepth hentry hexport, budget, hbudget => by
    obtain ⟨budget, rfl, hbelow⟩ := exists_budget hbudget hdepth
    simp only [lookupExport, hentry]
    exact hexport.isSome hbelow
  | depth, g, name, rest, _, .star hdepth hentry hstar hexport, budget, hbudget => by
    obtain ⟨budget, rfl, hbelow⟩ := exists_budget hbudget hdepth
    simp only [lookupExport, hentry, List.findSome?_isSome_iff]
    exact ⟨_, hstar, hexport.isSome hbelow⟩

end

/-- Something is found in a scope just if there is a derivation. -/
theorem lookupIn_isSome_iff (h : budget + depth = exportBudget) :
    (index.lookupIn budget x segments).isSome = true ↔ ∃ d, index.Derives depth x segments d := by
  constructor
  · intro hsome
    obtain ⟨d, hd⟩ := Option.isSome_iff_exists.1 hsome
    exact ⟨d, derives_of_lookupIn h hd⟩
  · rintro ⟨d, hd⟩
    exact hd.isSome h

/-- Something is found among the exports of a module just if there is a derivation. -/
theorem lookupExport_isSome_iff (h : budget + depth = exportBudget) :
    (index.lookupExport budget g name rest).isSome = true ↔
      ∃ d, index.DerivesExport depth g name rest d := by
  constructor
  · intro hsome
    obtain ⟨d, hd⟩ := Option.isSome_iff_exists.1 hsome
    exact ⟨d, derivesExport_of_lookupExport h hd⟩
  · rintro ⟨d, hd⟩
    exact hd.isSome h

/-! ## From a scope outward -/

/-- A scope and all those around it, innermost first. -/
inductive Outward (index : Index) : ScopeId → List ScopeId → Prop where
  | last {x : ScopeId} (hparent : (index.scope x).parent = none) : Outward index x [x]
  | step {x parent : ScopeId} {outward : List ScopeId}
    (hparent : (index.scope x).parent = some parent) (houtward : Outward index parent outward) :
    Outward index x (x :: outward)

theorem Nested.outward_enclosing (h : index.Nested) {steps : Nat} (hx : x.index < steps) :
    index.Outward x (index.enclosing steps x) := by
  induction steps generalizing x with
  | zero => omega
  | succ steps ih =>
    rw [enclosing]
    rcases hparent : (index.scope x).parent with _ | parent
    · exact .last hparent
    · have hlt := h.parent hparent
      exact .step hparent (ih (by omega))

/-- The walk from a scope outward ends. -/
theorem Nested.outward (h : index.Nested) (x : ScopeId) :
    index.Outward x (index.enclosing index.scopes.size x) := by
  by_cases hx : x.index < index.scopes.size
  · exact h.outward_enclosing hx
  · obtain ⟨steps, hsteps⟩ : ∃ steps, index.scopes.size = steps + 1 :=
      ⟨index.scopes.size - 1, by have := h.global; omega⟩
    have hnone : (index.scope x).parent = none := by
      rw [scope, Array.getElem?_eq_none (by omega)]
      rfl
    rw [hsteps, enclosing, hnone]
    exact .last hnone

/-- Whether the global scope is searched once or twice makes no difference. -/
theorem lookup_eq (index : Index) (x : ScopeId) (segments : List String) : index.lookup x segments =
    (index.enclosing index.scopes.size x ++ [globalScope]).findSome? fun scope =>
      index.lookupIn exportBudget scope segments := by
  unfold lookup searchOrder
  generalize index.enclosing index.scopes.size x = chain
  by_cases hmem : globalScope ∈ chain
  · rw [if_pos hmem, List.findSome?_append]
    rcases hfound : chain.findSome? fun scope => index.lookupIn exportBudget scope segments with _ | d
    · have hglobal := List.findSome?_eq_none_iff.1 hfound globalScope hmem
      simp [hglobal]
    · rfl
  · rw [if_neg hmem]

end Index

/-- A name is looked up from a scope outward and last in the global scope. A declaration is found just
if there is a derivation from one of these scopes, and it is derived from the first for which there
is. -/
theorem Modules.lookup_derives (modules : Modules) (scope : ScopeId) (segments : List String) :
    ∃ outward, modules.bind.2.Outward scope outward ∧
      ((∃ d, modules.bind.2.lookup scope segments = some d) ↔
        ∃ x ∈ outward ++ [globalScope], ∃ d, modules.bind.2.Derives 0 x segments d) ∧
      ∀ d, modules.bind.2.lookup scope segments = some d →
        ∃ before x after, outward ++ [globalScope] = before ++ x :: after ∧
          modules.bind.2.Derives 0 x segments d ∧
            ∀ y ∈ before, ∀ e, ¬ modules.bind.2.Derives 0 y segments e := by
  refine ⟨_, modules.bind_nested.outward scope, ?_, ?_⟩
  · rw [Index.lookup_eq, ← Option.isSome_iff_exists, List.findSome?_isSome_iff]
    simp only [Index.lookupIn_isSome_iff (Nat.add_zero exportBudget)]
  · intro d hd
    rw [Index.lookup_eq] at hd
    obtain ⟨before, x, after, hsplit, hx, hbefore⟩ := List.findSome?_eq_some_iff.1 hd
    refine ⟨before, x, after, hsplit, Index.derives_of_lookupIn (Nat.add_zero _) hx, ?_⟩
    intro y hy e he
    have hsome := he.isSome (Nat.add_zero exportBudget)
    rw [hbefore y hy] at hsome
    cases hsome

/-! ## Star exports -/

namespace Index

/-- Star exports lead from one module to another in some steps, past modules without an entry of that
name. -/
inductive StarChain (index : Index) (name : String) : Nat → ModuleId → ModuleId → Prop where
  | here {g : ModuleId} : StarChain index name 0 g g
  | star {steps : Nat} {g h k : ModuleId}
    (hentry : (index.scope (index.moduleScope g)).exports.lookup name = none)
    (hstar : h ∈ (index.scope (index.moduleScope g)).starExports)
    (hchain : StarChain index name steps h k) : StarChain index name (steps + 1) g k

/-- Star exports pass every name on, `default` like any other: something is found among the exports of a
module just if it is found by an entry of that name, there or in a module to which star exports lead. -/
theorem lookupExport_starChain (index : Index) (budget : Nat) (g : ModuleId) (name : String)
    (rest : List String) : (index.lookupExport budget g name rest).isSome = true ↔
      ∃ steps h, index.StarChain name steps g h ∧
        (index.scope (index.moduleScope h)).exports.lookup name ≠ none ∧
          (index.lookupExport (budget - steps) h name rest).isSome = true := by
  induction budget generalizing g with
  | zero => simp [lookupExport]
  | succ budget ih =>
    rcases hentry : (index.scope (index.moduleScope g)).exports.lookup name with _ | entry
    · have hstars : (index.lookupExport (budget + 1) g name rest).isSome = true ↔
          ∃ h ∈ (index.scope (index.moduleScope g)).starExports,
            (index.lookupExport budget h name rest).isSome = true := by
        simp only [lookupExport, hentry, List.findSome?_isSome_iff]
      rw [hstars]
      constructor
      · rintro ⟨h, hstar, hfound⟩
        obtain ⟨steps, k, hchain, hk, hfound⟩ := (ih h).1 hfound
        refine ⟨steps + 1, k, .star hentry hstar hchain, hk, ?_⟩
        rwa [Nat.add_sub_add_right]
      · rintro ⟨steps, k, hchain, hk, hfound⟩
        cases hchain with
        | here => exact absurd hentry hk
        | star _ hstar hchain =>
          rw [Nat.add_sub_add_right] at hfound
          exact ⟨_, hstar, (ih _).2 ⟨_, k, hchain, hk, hfound⟩⟩
    · constructor
      · intro hfound
        exact ⟨0, g, .here, by simp [hentry], hfound⟩
      · rintro ⟨steps, k, hchain, hk, hfound⟩
        cases hchain with
        | here => exact hfound
        | star hnone => rw [hnone] at hentry; cases hentry

end Index

/-- A module that passes on all exports of another, which has a default export. -/
def barrelTree : FileTree where
  entries := [(["app.ts"], .file "import D from './barrel';\n"),
    (["barrel.ts"], .file "export * from './types';\n"),
    (["types.ts"], .file "export default interface D {}\n")]
  current := []

set_option maxRecDepth 100000 in
theorem lookup_barrelTree : (Modules.load barrelTree [⟨"app.ts"⟩]).toOption.map (fun modules =>
      let index := modules.bind.2
      let app := index.moduleScope ⟨0⟩
      (((index.scope app).imports.lookup "D", index.lookup app ["D"]),
        (index.scope (index.moduleScope ⟨1⟩)).exports.lookup "default")) =
    some ((some (.named ⟨1⟩ "default"), some ⟨0⟩), none) := by
  decide +kernel

/-- A default import may lead to a declaration though the module has no default export. -/
theorem Modules.lookup_starDefault : ¬ ∀ (tree : FileTree) (roots : List Path) (modules : Modules),
    Modules.load tree roots = .ok modules → ∀ (scope : ScopeId) (name : String) (g : ModuleId),
      (modules.bind.2.scope scope).imports.lookup name = some (.named g "default") →
        (modules.bind.2.scope (modules.bind.2.moduleScope g)).exports.lookup "default" = none →
          modules.bind.2.lookup scope [name] = none := by
  intro h
  have hlookup := lookup_barrelTree
  rcases hload : Modules.load barrelTree [⟨"app.ts"⟩] with error | modules
  · rw [hload] at hlookup
    cases hlookup
  · rw [hload] at hlookup
    obtain ⟨hfound, hentry⟩ := Prod.mk.inj (Option.some.inj hlookup)
    obtain ⟨himport, hfound⟩ := Prod.mk.inj hfound
    have hnone := h _ _ modules hload _ "D" ⟨1⟩ himport hentry
    rw [hfound] at hnone
    cases hnone

end ComponentSchema
