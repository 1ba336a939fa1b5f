import ComponentSchema.Proofs.Binder.FileBoundTwice
import ComponentSchema.Proofs.Checker.RecordedAnswers
import ComponentSchema.Proofs.Loader.LoadOrder

/-!
# Files that two programs share

Two programs over the same files load a file that they share under two ids, at two places of the
order, and may reach it by two spellings. The file has the same tree in both, and its specifiers lead
to files that they share too. So what is made for it in one program and in the other are counterparts.

Hypotheses. `FileTree.IsRooted`: every entry stands in a directory. `Modules.NothingGlobal`: in neither
program is there a script or a `declare global` block.

Results.
* `Discovery.Loaded.sameFile`: a shared file is the same in both programs.
* `Modules.Bindable.indexAt_remains`: what has been made for a file stays as it is while others are
  bound.
* `Modules.Sharing.bindFile`: the views of a shared file are the same but for ids.
* `Modules.Sharing.alike`: the indices of two programs that share files are alike.
-/
namespace ComponentSchema

open Syntax

/-! ## The same file -/

section

variable {tree : FileTree} {roots₁ roots₂ : List Path} {discovery₁ discovery₂ : Discovery}
  {g h g' h' : ModuleId} {file₁ file₂ : ModuleFile}

/-- A module of one program and one of another are the file at the same location. -/
def SameFile (tree : FileTree) (files₁ files₂ : Array ModuleFile) (g h : ModuleId) : Prop :=
  ∃ location, StandsAt tree files₁ g location ∧ StandsAt tree files₂ h location

theorem SameFile.symm {files₁ files₂ : Array ModuleFile} (hsame : SameFile tree files₁ files₂ g h) :
    SameFile tree files₂ files₁ h g := by
  obtain ⟨location, hg, hh⟩ := hsame
  exact ⟨location, hh, hg⟩

namespace Discovery.Loaded

/-- A specifier that leads to a file in one program leads to the same file in the other. -/
theorem sameDependency (hrooted : tree.IsRooted) (hloaded₁ : Loaded tree roots₁ discovery₁)
    (hloaded₂ : Loaded tree roots₂ discovery₂)
    (hsame : SameFile tree discovery₁.files discovery₂.files g h)
    (hfile₁ : discovery₁.files[g.index]? = some file₁)
    (hfile₂ : discovery₂.files[h.index]? = some file₂) (htree : file₂.tree = file₁.tree)
    {specifier : String} (hlook : file₁.dependencies.lookup specifier = some g') :
    ∃ h', file₂.dependencies.lookup specifier = some h' ∧
      SameFile tree discovery₁.files discovery₂.files g' h' := by
  obtain ⟨location, ⟨file, hfile, hat₁⟩, file', hfile', hat₂⟩ := hsame
  obtain rfl := Option.some.inj (hfile.symm.trans hfile₁)
  obtain rfl := Option.some.inj (hfile'.symm.trans hfile₂)
  obtain ⟨hs, found, target, hfound, htarget, hg'⟩ :=
    hloaded₁.sound.dependencies hfile₁ (mem_of_lookup hlook)
  obtain ⟨found', target', hfound', hat, hat'⟩ := resolveImport_spelling hrooted hat₁ hat₂ hfound
  obtain rfl := htarget.unique hat
  rw [← htree] at hs
  obtain ⟨h₀, hmem, -⟩ := hloaded₂.exists_dependency hfile₂ hs hfound' hat'
  have hsome : (file'.dependencies.lookup specifier).isSome = true :=
    List.lookup_isSome_iff.2 ⟨_, hmem, beq_self_eq_true _⟩
  obtain ⟨h', hlook'⟩ := Option.isSome_iff_exists.1 hsome
  obtain ⟨-, found'', target'', hfound'', hat'', hh'⟩ :=
    hloaded₂.sound.dependencies hfile₂ (mem_of_lookup hlook')
  obtain rfl := Option.some.inj (Except.ok.inj (hfound'.symm.trans hfound''))
  obtain rfl := hat'.unique hat''
  exact ⟨h', hlook', target, hg', hh'⟩

/-- A file that two programs share has the same tree in both, and its specifiers lead to files that
they share. -/
theorem sameFile (hrooted : tree.IsRooted) (hloaded₁ : Loaded tree roots₁ discovery₁)
    (hloaded₂ : Loaded tree roots₂ discovery₂)
    (hsame : SameFile tree discovery₁.files discovery₂.files g h)
    (hfile₁ : discovery₁.files[g.index]? = some file₁)
    (hfile₂ : discovery₂.files[h.index]? = some file₂) :
    file₁.tree = file₂.tree ∧ ∀ source,
      Option.Rel (SameFile tree discovery₁.files discovery₂.files) (file₁.dependency? source)
        (file₂.dependency? source) := by
  have htree : file₁.tree = file₂.tree := by
    obtain ⟨location, ⟨file, hfile, hat₁⟩, file', hfile', hat₂⟩ := hsame
    obtain rfl := Option.some.inj (hfile.symm.trans hfile₁)
    obtain rfl := Option.some.inj (hfile'.symm.trans hfile₂)
    have hparsed := parseFile_spelling hrooted hat₁ hat₂ (hloaded₁.sound.parsed hfile₁)
    exact Except.ok.inj (hparsed.symm.trans (hloaded₂.sound.parsed hfile₂))
  refine ⟨htree, fun source => ?_⟩
  unfold ModuleFile.dependency?
  rcases source.exact with _ | specifier
  · exact .none
  · simp only [Option.bind_some]
    rcases hlook₁ : file₁.dependencies.lookup specifier with _ | g'
    · rcases hlook₂ : file₂.dependencies.lookup specifier with _ | h'
      · exact .none
      · obtain ⟨g', hlook, -⟩ :=
          hloaded₂.sameDependency hrooted hloaded₁ hsame.symm hfile₂ hfile₁ htree hlook₂
        rw [hlook₁] at hlook
        cases hlook
    · obtain ⟨h', hlook₂, hsame'⟩ :=
        hloaded₁.sameDependency hrooted hloaded₂ hsame hfile₁ hfile₂ htree.symm hlook₁
      rw [hlook₂]
      exact .some hsame'

end Discovery.Loaded

end

/-! ## Binding file after file -/

/-- There is no script in the program and no `declare global` block. -/
def Modules.NothingGlobal (modules : Modules) : Prop :=
  ∀ (i : Nat) (file : ModuleFile), modules.files[i]? = some file →
    file.tree.isScript = false ∧ file.tree.declaresGlobal = false

instance (modules : Modules) : Decidable modules.NothingGlobal :=
  decidable_of_iff (∀ file ∈ modules.files.toList,
      file.tree.isScript = false ∧ file.tree.declaresGlobal = false) <| by
    constructor
    · exact fun h i file hfile => h file (List.mem_of_getElem? (by rwa [Array.getElem?_toList]))
    · intro h file hfile
      obtain ⟨i, hi⟩ := List.getElem?_of_mem hfile
      exact h i file (by rwa [Array.getElem?_toList] at hi)

namespace Modules

/-- The index after the first `k` files have been bound. -/
def indexAt (modules : Modules) (k : Nat) : Index :=
  (((modules.bound.take k).mapM Binding.bindEntry).run modules.unbound).2

/-- Every file of the order is bound. -/
theorem map_fst_bound {modules : Modules} (h : ∀ id ∈ modules.order, id.index < modules.files.size) :
    modules.bound.map Prod.fst = modules.order := by
  rw [bound, List.map_filterMap]
  refine (List.filterMap_congr fun id hid => ?_).trans List.filterMap_some
  rw [Array.getElem?_eq_getElem (h id hid)]
  rfl

end Modules

/-- The scope of a module in a program without scripts. -/
def ModuleId.ownScope (id : ModuleId) : ScopeId := ⟨id.index + 1⟩

theorem ModuleId.ownScope_inj {g h : ModuleId} (hgh : g.ownScope = h.ownScope) : g = h := by
  obtain ⟨i⟩ := g
  obtain ⟨j⟩ := h
  simpa [ownScope] using hgh

/-- An index of which no file has been bound, with the scopes of `k` modules. -/
structure Unbound (k : Nat) (index : Index) : Prop where
  scopesSize : index.scopes.size = k + 1
  modulesSize : index.moduleScopes.size = k
  scopes : ∀ x : ScopeId, index.scope x = Scope.empty none none
  own : ∀ g : ModuleId, g.index < k → index.moduleScope g = g.ownScope

theorem Unbound.empty : Unbound 0 Index.empty where
  scopesSize := rfl
  modulesSize := rfl
  scopes x := by
    obtain ⟨_ | i⟩ := x
    · rfl
    · simp [Index.scope, Index.empty]
  own g hg := absurd hg (Nat.not_lt_zero _)

theorem Unbound.moduleScope {k : Nat} {index : Index} (h : Unbound k index) {file : ModuleFile}
    (hfile : file.tree.isScript = false) :
    Unbound (k + 1) ((Binding.moduleScope file).run index).2 := by
  have hrun : ((Binding.moduleScope file).run index).2 = { index with
      scopes := index.scopes.push (Scope.empty none none)
      moduleScopes := index.moduleScopes.push ⟨index.scopes.size⟩ } := by
    rw [Binding.moduleScope_run, ModuleFile.hasScope, hfile]
    rfl
  have hscopes := h.scopesSize
  have hmodules := h.modulesSize
  rw [hrun]
  constructor
  · simp [hscopes]
  · simp [hmodules]
  · intro x
    have hx := Index.scope_push index x (Scope.empty none none)
    rw [h.scopes x, ite_self] at hx
    exact hx
  · intro g hg
    simp only [Index.moduleScope, Array.getElem?_push, hmodules]
    split
    · rename_i hlast
      simp [hscopes, ModuleId.ownScope, hlast]
    · exact h.own g (by omega)

theorem Unbound.forM {k : Nat} {index : Index} (h : Unbound k index) {files : List ModuleFile}
    (hfiles : ∀ file ∈ files, file.tree.isScript = false) :
    Unbound (k + files.length) ((files.forM Binding.moduleScope).run index).2 := by
  induction files generalizing k index with
  | nil => exact h
  | cons file rest ih =>
    have hfirst := h.moduleScope (hfiles file (List.mem_cons_self ..))
    have hrest := ih hfirst fun other ho => hfiles other (List.mem_cons_of_mem _ ho)
    rw [List.length_cons, Nat.add_comm rest.length 1, ← Nat.add_assoc]
    exact hrest

/-- The file of a program that is bound at place `k`. -/
def Modules.BoundAt (modules : Modules) (k : Nat) (g : ModuleId) (file : ModuleFile) : Prop :=
  modules.bound[k]? = some (g, file)

/-- What was in one index is in another, but for the scopes of the modules that were bound in
between. -/
structure Modules.Remains (modules : Modules) (k k' : Nat) : Prop where
  scopesSize : (modules.indexAt k).scopes.size ≤ (modules.indexAt k').scopes.size
  declsSize : (modules.indexAt k).decls.size ≤ (modules.indexAt k').decls.size
  typesSize : (modules.indexAt k).typeSites.size ≤ (modules.indexAt k').typeSites.size
  functionsSize : (modules.indexAt k).functionSites.size ≤ (modules.indexAt k').functionSites.size
  moduleScopes : (modules.indexAt k').moduleScopes = (modules.indexAt k).moduleScopes
  scopes : ∀ x : ScopeId, x.index < (modules.indexAt k).scopes.size →
    (∀ j g file, k ≤ j → j < k' → modules.BoundAt j g file → x ≠ g.ownScope) →
      (modules.indexAt k').scope x = (modules.indexAt k).scope x
  decls : ∀ i < (modules.indexAt k).decls.size,
    (modules.indexAt k').decls[i]? = (modules.indexAt k).decls[i]?
  types : ∀ i < (modules.indexAt k).typeSites.size,
    (modules.indexAt k').typeSites[i]? = (modules.indexAt k).typeSites[i]?
  functions : ∀ i < (modules.indexAt k).functionSites.size,
    (modules.indexAt k').functionSites[i]? = (modules.indexAt k).functionSites[i]?

namespace Modules

variable {modules : Modules} {k k' k'' : Nat} {g h : ModuleId} {file file' : ModuleFile}

theorem Remains.refl (modules : Modules) (k : Nat) : modules.Remains k k :=
  ⟨Nat.le_refl _, Nat.le_refl _, Nat.le_refl _, Nat.le_refl _, rfl, fun _ _ _ => rfl, fun _ _ => rfl,
    fun _ _ => rfl, fun _ _ => rfl⟩

theorem Remains.trans (hkk : k ≤ k') (hkk' : k' ≤ k'') (h : modules.Remains k k')
    (h' : modules.Remains k' k'') : modules.Remains k k'' where
  scopesSize := Nat.le_trans h.scopesSize h'.scopesSize
  declsSize := Nat.le_trans h.declsSize h'.declsSize
  typesSize := Nat.le_trans h.typesSize h'.typesSize
  functionsSize := Nat.le_trans h.functionsSize h'.functionsSize
  moduleScopes := h'.moduleScopes.trans h.moduleScopes
  scopes x hx hout := by
    rw [h'.scopes x (Nat.lt_of_lt_of_le hx h.scopesSize)
      fun j g file hj hj' => hout j g file (Nat.le_trans hkk hj) hj']
    exact h.scopes x hx fun j g file hj hj' => hout j g file hj (Nat.lt_of_lt_of_le hj' hkk')
  decls i hi := (h'.decls i (Nat.lt_of_lt_of_le hi h.declsSize)).trans (h.decls i hi)
  types i hi := (h'.types i (Nat.lt_of_lt_of_le hi h.typesSize)).trans (h.types i hi)
  functions i hi := (h'.functions i (Nat.lt_of_lt_of_le hi h.functionsSize)).trans (h.functions i hi)

theorem Remains.of_added (hbound : modules.BoundAt k g file) {n : Made}
    (h : Added (modules.indexAt k) g.ownScope n (modules.indexAt (k + 1))) :
    modules.Remains k (k + 1) where
  scopesSize := by simp [h.scopesSize]
  declsSize := by simp [h.declsSize]
  typesSize := by simp [h.typesSize]
  functionsSize := by simp [h.functionsSize]
  moduleScopes := h.moduleScopes
  scopes x hx hout := h.scopes x hx (hout k g file (Nat.le_refl k) (Nat.lt_succ_self k) hbound)
  decls := h.decls
  types := h.types
  functions := h.functions

/-! ## One program -/

/-- What is used of a program to bind it. -/
structure Bindable (modules : Modules) : Prop where
  file : ∀ {k g file}, modules.BoundAt k g file → modules.files[g.index]? = some file
  once : ∀ {k k' g file file'}, modules.BoundAt k g file → modules.BoundAt k' g file' → k = k'
  all : ∀ {g file}, modules.files[g.index]? = some file → ∃ k, modules.BoundAt k g file
  notGlobal : ∀ {k g file}, modules.BoundAt k g file → file.tree.declaresGlobal = false
  unbound : Unbound modules.files.size modules.unbound

theorem Bindable.of_loaded {tree : FileTree} {roots : List Path} {discovery : Discovery}
    (h : Discovery.Loaded tree roots discovery)
    (hlocal : NothingGlobal ⟨discovery.files, discovery.finished.reverse⟩) :
    Bindable ⟨discovery.files, discovery.finished.reverse⟩ := by
  have hfile : ∀ {k g file}, BoundAt ⟨discovery.files, discovery.finished.reverse⟩ k g file →
      discovery.files[g.index]? = some file := by
    intro k g file hbound
    obtain ⟨id, -, hid⟩ := List.mem_filterMap.1 (List.mem_of_getElem? hbound)
    obtain ⟨file', hfile', heq⟩ := Option.map_eq_some_iff.1 hid
    obtain ⟨rfl, rfl⟩ := Prod.mk.inj heq
    exact hfile'
  refine ⟨hfile, ?_, ?_, fun hbound => (hlocal _ _ (hfile hbound)).2, ?_⟩
  · intro k k' g file file' hbound hbound'
    obtain rfl := Option.some.inj ((hfile hbound).symm.trans (hfile hbound'))
    have hnodup : (bound ⟨discovery.files, discovery.finished.reverse⟩).Nodup := by
      refine (List.nodup_reverse.2 h.settled.nodup).filterMap fun id id' entry hid hid' => ?_
      obtain ⟨file, -, rfl⟩ := Option.map_eq_some_iff.1 hid
      obtain ⟨file', -, heq⟩ := Option.map_eq_some_iff.1 hid'
      exact (Prod.mk.inj heq).1.symm
    obtain ⟨hlt, -⟩ := List.getElem?_eq_some_iff.1 hbound
    exact (List.getElem?_inj hlt hnodup).1 (hbound.trans hbound'.symm)
  · intro g file hg
    have hlt := (Array.getElem?_eq_some_iff.1 hg).1
    have hmem : (g, file) ∈ bound ⟨discovery.files, discovery.finished.reverse⟩ :=
      List.mem_filterMap.2 ⟨g, List.mem_reverse.2 (h.all g hlt), by simp [hg]⟩
    exact List.getElem?_of_mem hmem
  · have hmodule : ∀ file ∈ discovery.files.toList, file.tree.isScript = false := fun file hf => by
      obtain ⟨i, hi⟩ := List.getElem?_of_mem hf
      exact (hlocal i file (by simpa using hi)).1
    have hunbound := Unbound.empty.forM hmodule
    rw [Nat.zero_add, Array.length_toList] at hunbound
    exact hunbound

theorem indexAt_succ (hbound : modules.BoundAt k g file) : modules.indexAt (k + 1) =
    ((Binding.bindFile file ((modules.indexAt k).moduleScope g)).run (modules.indexAt k)).2 := by
  unfold indexAt
  rw [List.take_add_one, hbound, Option.toList_some, List.mapM_append, List.mapM_cons]
  rfl

theorem indexAt_succ_none (hbound : modules.bound[k]? = none) :
    modules.indexAt (k + 1) = modules.indexAt k := by
  unfold indexAt
  rw [List.take_add_one, hbound, Option.toList_none, List.append_nil]

theorem indexAt_length (modules : Modules) :
    modules.indexAt modules.bound.length = modules.bind.2 := by
  rw [indexAt, List.take_length, bind_eq]

theorem length_mapM {α β σ : Type} (f : α → StateM σ β) (items : List α) (state : σ) :
    ((items.mapM f).run state).1.length = items.length := by
  induction items generalizing state with
  | nil => rfl
  | cons item rest ih =>
    rw [List.mapM_cons]
    exact congrArg (· + 1) (ih _)

/-- The view of a file, as it is bound. -/
theorem viewAt (hbound : modules.BoundAt k g file) : modules.bind.1[k]? =
    some ((Binding.bindFile file ((modules.indexAt k).moduleScope g)).run (modules.indexAt k)).1 := by
  obtain ⟨hlt, hget⟩ := List.getElem?_eq_some_iff.1 hbound
  have hsplit : modules.bound = modules.bound.take k ++ (g, file) :: modules.bound.drop (k + 1) := by
    rw [← hget, List.cons_getElem_drop_succ, List.take_append_drop]
  have hlength : (((modules.bound.take k).mapM Binding.bindEntry).run modules.unbound).1.length = k := by
    rw [length_mapM, List.length_take, Nat.min_eq_left (Nat.le_of_lt hlt)]
  rw [bind_eq, hsplit, List.mapM_append, List.mapM_cons]
  show (((((modules.bound.take k).mapM Binding.bindEntry).run modules.unbound).1 ++
    ((Binding.bindFile file ((modules.indexAt k).moduleScope g)).run (modules.indexAt k)).1 ::
      _) : List SourceFile)[k]? = _
  rw [List.getElem?_append_right (Nat.le_of_eq hlength), hlength, Nat.sub_self,
    List.getElem?_cons_zero]

/-- While the first `k` files are bound, the scopes of the others stay empty. -/
theorem Bindable.own_empty (h : modules.Bindable) (hbound : modules.BoundAt k g file)
    (hremains : modules.Remains 0 k) :
    (modules.indexAt k).moduleScope g = g.ownScope ∧
      g.ownScope.index < modules.unbound.scopes.size ∧
        (modules.indexAt k).scope g.ownScope = Scope.empty none none := by
  have hlt := (Array.getElem?_eq_some_iff.1 (h.file hbound)).1
  have hvalid : g.ownScope.index < modules.unbound.scopes.size := by
    rw [h.unbound.scopesSize]
    exact Nat.succ_lt_succ hlt
  refine ⟨?_, hvalid, ?_⟩
  · rw [Index.moduleScope, hremains.moduleScopes]
    exact h.unbound.own g hlt
  · rw [hremains.scopes _ hvalid]
    · exact h.unbound.scopes _
    · intro j g' file' _ hj hbound' heq
      obtain rfl := ModuleId.ownScope_inj heq
      exact absurd (h.once hbound hbound') (by omega)

theorem Bindable.added_of_remains (h : modules.Bindable) (hbound : modules.BoundAt k g file)
    (hremains : modules.Remains 0 k) :
    ∃ n, Added (modules.indexAt k) g.ownScope n (modules.indexAt (k + 1)) := by
  obtain ⟨hown, hvalid, hempty⟩ := h.own_empty hbound hremains
  let b : Twice := ⟨modules.indexAt k, modules.indexAt k, g.ownScope, g.ownScope, Eq⟩
  have hvalid' := Nat.lt_of_lt_of_le hvalid hremains.scopesSize
  have hstart : b.Agree Made.none b.before₁ b.before₂ := .start hvalid' hvalid' hempty hempty
  have hlocal := h.notGlobal hbound
  obtain ⟨n, -, hagree, -⟩ := Pairing.bindFile_both (p := b.pairing) file file hstart
    (.inl ⟨rfl, rfl⟩) rfl (fun hglobal => absurd hglobal (by simp [hlocal])) fun source => by
      cases file.dependency? source with
      | none => exact .none
      | some g => exact .some rfl
  rw [indexAt_succ hbound, hown]
  exact ⟨n, hagree.added₁⟩

theorem Bindable.remains_zero (h : modules.Bindable) (k : Nat) : modules.Remains 0 k := by
  induction k with
  | zero => exact .refl modules 0
  | succ k ih =>
    refine ih.trans (Nat.zero_le k) (Nat.le_succ k) ?_
    rcases hentry : modules.bound[k]? with _ | ⟨g, file⟩
    · have heq := indexAt_succ_none hentry
      have hrefl := Remains.refl modules k
      constructor <;> simp [heq]
    · obtain ⟨n, hn⟩ := h.added_of_remains hentry ih
      exact .of_added hentry hn

/-- Binding a file adds to the index, and changes nothing in it but the scope of the module. -/
theorem Bindable.added (h : modules.Bindable) (hbound : modules.BoundAt k g file) :
    ∃ n, Added (modules.indexAt k) g.ownScope n (modules.indexAt (k + 1)) :=
  h.added_of_remains hbound (h.remains_zero k)

/-- What has been made for a file stays as it is while others are bound. -/
theorem Bindable.indexAt_remains (h : modules.Bindable) (hk : k ≤ k') : modules.Remains k k' := by
  induction k', hk using Nat.le_induction with
  | base => exact .refl modules k
  | succ k' hk ih =>
    refine ih.trans hk (Nat.le_succ k') ?_
    rcases hentry : modules.bound[k']? with _ | ⟨g, file⟩
    · have heq := indexAt_succ_none hentry
      constructor <;> simp [heq]
    · obtain ⟨n, hn⟩ := h.added hentry
      exact .of_added hentry hn

theorem Bindable.own_lt (h : modules.Bindable) (hbound : modules.BoundAt k g file) (k' : Nat) :
    g.ownScope.index < (modules.indexAt k').scopes.size := by
  obtain ⟨-, hvalid, -⟩ := h.own_empty hbound (h.remains_zero k)
  exact Nat.lt_of_lt_of_le hvalid (h.remains_zero k').scopesSize

/-- The size of a growing collection tells the place at which something in it was added. -/
theorem place_unique {size : Nat → Nat} (hmono : ∀ {k k'}, k ≤ k' → size k ≤ size k') {i : Nat}
    (hle : size k ≤ i) (hlt : i < size (k + 1)) (hle' : size k' ≤ i) (hlt' : i < size (k' + 1)) :
    k = k' := by
  rcases Nat.lt_trichotomy k k' with hk | hk | hk
  · have := @hmono (k + 1) k' hk
    omega
  · exact hk
  · have := @hmono (k' + 1) k hk
    omega

/-- A scope was made for the file at a place, or is the file's own. -/
def MadeAt (modules : Modules) (k : Nat) (g : ModuleId) (x : ScopeId) : Prop :=
  x = g.ownScope ∨
    (modules.indexAt k).scopes.size ≤ x.index ∧ x.index < (modules.indexAt (k + 1)).scopes.size

/-- A scope was made for one file only. -/
theorem Bindable.scope_place (h : modules.Bindable) (hbound : modules.BoundAt k g file)
    (hbound' : modules.BoundAt k' g' file') {x : ScopeId} (hx : modules.MadeAt k g x)
    (hx' : modules.MadeAt k' g' x) : k = k' := by
  rcases hx with rfl | ⟨hle, hlt⟩ <;> rcases hx' with heq | ⟨hle', hlt'⟩
  · obtain rfl := ModuleId.ownScope_inj heq
    exact h.once hbound hbound'
  · have := h.own_lt hbound k'
    omega
  · have := h.own_lt hbound' k
    rw [heq] at hle
    omega
  · exact place_unique (fun hk => (h.indexAt_remains hk).scopesSize) hle hlt hle' hlt'

theorem Bindable.remains_bind (h : modules.Bindable) (hk : k < modules.bound.length) :
    modules.Remains (k + 1) modules.bound.length :=
  h.indexAt_remains hk

/-- What holds of a scope when a file has been bound holds when all files have been. -/
theorem Bindable.scope_bind (h : modules.Bindable) (hbound : modules.BoundAt k g file)
    {x : ScopeId} (hx : modules.MadeAt k g x) :
    modules.bind.2.scope x = (modules.indexAt (k + 1)).scope x ∧
      x.index < modules.bind.2.scopes.size ∧
        ∀ parent, (modules.bind.2.scope x).parent = some parent → parent.index < x.index := by
  have hremains := h.remains_bind (List.getElem?_eq_some_iff.1 hbound).1
  obtain ⟨n, hadded⟩ := h.added hbound
  have hlt : x.index < (modules.indexAt (k + 1)).scopes.size := by
    rcases hx with rfl | ⟨-, hlt⟩
    · exact h.own_lt hbound (k + 1)
    · exact hlt
  have hscope : modules.bind.2.scope x = (modules.indexAt (k + 1)).scope x := by
    rw [← indexAt_length]
    refine hremains.scopes x hlt fun j g' file' hj _ hbound' heq => ?_
    have := h.scope_place hbound hbound' hx (.inl heq)
    omega
  refine ⟨hscope, ?_, ?_⟩
  · rw [← indexAt_length]
    exact Nat.lt_of_lt_of_le hlt hremains.scopesSize
  · rw [hscope]
    exact hadded.parents x (hx.imp_right fun ⟨hle, _⟩ => ⟨hle, hlt⟩)

theorem Bindable.moduleScope_bind (h : modules.Bindable) (hbound : modules.BoundAt k g file) :
    modules.bind.2.moduleScope g = g.ownScope := by
  rw [← indexAt_length]
  have hremains := h.indexAt_remains (Nat.le_of_lt (List.getElem?_eq_some_iff.1 hbound).1)
  rw [Index.moduleScope, hremains.moduleScopes]
  exact (h.own_empty hbound (h.remains_zero k)).1

theorem Bindable.global_bind (h : modules.Bindable) :
    modules.bind.2.scope globalScope = Scope.empty none none := by
  rw [← indexAt_length, (h.remains_zero _).scopes globalScope]
  · exact h.unbound.scopes _
  · show 0 < modules.unbound.scopes.size
    rw [h.unbound.scopesSize]
    exact Nat.succ_pos _
  · intro j g file _ _ _ heq
    cases heq

theorem Bindable.ne_global (h : modules.Bindable) {x : ScopeId} (hx : modules.MadeAt k g x) :
    x ≠ globalScope := by
  rintro rfl
  rcases hx with heq | ⟨hle, -⟩
  · cases heq
  · have hpos := (h.remains_zero k).scopesSize
    have hsize : (modules.indexAt 0).scopes.size = _ := h.unbound.scopesSize
    have hzero : globalScope.index = 0 := rfl
    omega

/-! ## Two programs -/

/-- What two programs need to have in common to bind files alike; `same` says which files they
share. -/
structure Sharing (modules₁ modules₂ : Modules) (same : ModuleId → ModuleId → Prop) : Prop where
  bindable₁ : modules₁.Bindable
  bindable₂ : modules₂.Bindable
  files : ∀ {g h}, same g h → ∃ file₁ file₂, modules₁.files[g.index]? = some file₁ ∧
    modules₂.files[h.index]? = some file₂ ∧ file₁.tree = file₂.tree ∧
      ∀ source, Option.Rel same (file₁.dependency? source) (file₂.dependency? source)
  unique : ∀ {g h g' h'}, same g h → same g' h' → (g = g' ↔ h = h')

variable {modules₁ modules₂ : Modules} {same : ModuleId → ModuleId → Prop} {l l' : Nat}
  {b b' : Twice} {n n' : Made} {x y x' y' : ScopeId}

/-- A shared file, at its places in the orders of two programs. -/
structure SharedAt (modules₁ modules₂ : Modules) (same : ModuleId → ModuleId → Prop) (k l : Nat)
    (b : Twice) (n : Made) : Prop where
  files : ∃ g h file₁ file₂, modules₁.BoundAt k g file₁ ∧ modules₂.BoundAt l h file₂ ∧ same g h ∧
    b = ⟨modules₁.indexAt k, modules₂.indexAt l, g.ownScope, h.ownScope, same⟩
  agree : b.Agree n (modules₁.indexAt (k + 1)) (modules₂.indexAt (l + 1))

/-- What has been made for the files that two programs share. -/
def counterparts (modules₁ modules₂ : Modules) (same : ModuleId → ModuleId → Prop) : Counterparts where
  module := same
  scope x y := ∃ k l b n, SharedAt modules₁ modules₂ same k l b n ∧ (b.counterparts n).scope x y
  decl d e := ∃ k l b n, SharedAt modules₁ modules₂ same k l b n ∧ (b.counterparts n).decl d e
  node i j := ∃ k l b n, SharedAt modules₁ modules₂ same k l b n ∧ (b.counterparts n).node i j
  function f g := ∃ k l b n, SharedAt modules₁ modules₂ same k l b n ∧ (b.counterparts n).function f g
  classSite _ _ := True

theorem SharedAt.before (hat : SharedAt modules₁ modules₂ same k l b n) :
    b.before₁ = modules₁.indexAt k ∧ b.before₂ = modules₂.indexAt l := by
  obtain ⟨-, -, -, -, -, -, -, rfl⟩ := hat.files
  exact ⟨rfl, rfl⟩

theorem SharedAt.lt (hat : SharedAt modules₁ modules₂ same k l b n) :
    k < modules₁.bound.length ∧ l < modules₂.bound.length := by
  obtain ⟨g, h, file₁, file₂, hk, hl, -⟩ := hat.files
  exact ⟨(List.getElem?_eq_some_iff.1 hk).1, (List.getElem?_eq_some_iff.1 hl).1⟩

theorem SharedAt.within (h : SharedAt modules₁ modules₂ same k l b n) :
    (b.counterparts n).Within (counterparts modules₁ modules₂ same) where
  module hm := by
    obtain ⟨g, h, file₁, file₂, -, -, -, rfl⟩ := h.files
    exact hm
  scope hxy := ⟨k, l, b, n, h, hxy⟩
  decl hde := ⟨k, l, b, n, h, hde⟩
  node hij := ⟨k, l, b, n, h, hij⟩
  function hfg := ⟨k, l, b, n, h, hfg⟩
  classSite hab := trivial

/-- A shared file is bound alike in both programs. -/
theorem Sharing.bindFile (hs : Sharing modules₁ modules₂ same) (hk : modules₁.BoundAt k g file)
    (hl : modules₂.BoundAt l h file') (hsame : same g h) :
    ∃ b n, SharedAt modules₁ modules₂ same k l b n ∧
      ∃ view₁ view₂, modules₁.bind.1[k]? = some view₁ ∧ modules₂.bind.1[l]? = some view₂ ∧
        (counterparts modules₁ modules₂ same).SameViews view₁.declarations view₂.declarations := by
  obtain ⟨file₁, file₂, hfile₁, hfile₂, htree, hdependencies⟩ := hs.files hsame
  obtain rfl := Option.some.inj (hfile₁.symm.trans (hs.bindable₁.file hk))
  obtain rfl := Option.some.inj (hfile₂.symm.trans (hs.bindable₂.file hl))
  obtain ⟨hown₁, -, hempty₁⟩ := hs.bindable₁.own_empty hk (hs.bindable₁.remains_zero k)
  obtain ⟨hown₂, -, hempty₂⟩ := hs.bindable₂.own_empty hl (hs.bindable₂.remains_zero l)
  let b : Twice := ⟨modules₁.indexAt k, modules₂.indexAt l, g.ownScope, h.ownScope, same⟩
  have hstart : b.Agree Made.none b.before₁ b.before₂ :=
    .start (hs.bindable₁.own_lt hk k) (hs.bindable₂.own_lt hl l) hempty₁ hempty₂
  have hlocal := hs.bindable₁.notGlobal hk
  obtain ⟨n, -, hagree, hviews⟩ := Pairing.bindFile_both (p := b.pairing) file₁ file₂ hstart
    (.inl ⟨rfl, rfl⟩) htree (fun hglobal => absurd hglobal (by simp [hlocal])) hdependencies
  have hview₁ := viewAt hk
  have hview₂ := viewAt hl
  rw [hown₁] at hview₁
  rw [hown₂] at hview₂
  have hshared : SharedAt modules₁ modules₂ same k l b n := by
    refine ⟨⟨g, h, file₁, file₂, hk, hl, hsame, rfl⟩, ?_⟩
    rw [indexAt_succ hk, indexAt_succ hl, hown₁, hown₂]
    exact hagree
  exact ⟨b, n, hshared, _, _, hview₁, hview₂, hviews.mono hshared.within⟩

theorem SharedAt.same_place (hs : Sharing modules₁ modules₂ same)
    (hat : SharedAt modules₁ modules₂ same k l b n)
    (hat' : SharedAt modules₁ modules₂ same k' l' b' n') : (k = k' ↔ l = l') ∧ (k = k' → b = b') := by
  obtain ⟨g, h, file₁, file₂, hk, hl, hsame, rfl⟩ := hat.files
  obtain ⟨g', h', file₁', file₂', hk', hl', hsame', rfl⟩ := hat'.files
  have hids := hs.unique hsame hsame'
  have hk_iff : k = k' ↔ g = g' := by
    constructor
    · rintro rfl
      exact (Prod.mk.inj (Option.some.inj (hk.symm.trans hk'))).1
    · rintro rfl
      exact hs.bindable₁.once hk hk'
  have hl_iff : l = l' ↔ h = h' := by
    constructor
    · rintro rfl
      exact (Prod.mk.inj (Option.some.inj (hl.symm.trans hl'))).1
    · rintro rfl
      exact hs.bindable₂.once hl hl'
  refine ⟨hk_iff.trans (hids.trans hl_iff.symm), fun heq => ?_⟩
  have hgg := hk_iff.1 heq
  have hhh := hids.1 hgg
  rw [heq, hl_iff.2 hhh, hgg, hhh]

theorem SharedAt.scope_places (hat : SharedAt modules₁ modules₂ same k l b n)
    (hxy : (b.counterparts n).scope x y) :
    (∃ g file, modules₁.BoundAt k g file ∧ modules₁.MadeAt k g x) ∧
      ∃ h file, modules₂.BoundAt l h file ∧ modules₂.MadeAt l h y := by
  have hsize₁ := hat.agree.added₁.scopesSize
  have hsize₂ := hat.agree.added₂.scopesSize
  obtain ⟨g, h, file₁, file₂, hk, hl, hsame, rfl⟩ := hat.files
  have hx := Twice.scope_left hxy
  have hy := Twice.scope_right hxy
  rw [← hsize₁] at hx
  rw [← hsize₂] at hy
  exact ⟨⟨g, file₁, hk, hx⟩, h, file₂, hl, hy⟩

section

variable (hs : Sharing modules₁ modules₂ same)
include hs

theorem Sharing.scopeUnique (hxy : (counterparts modules₁ modules₂ same).scope x y)
    (hxy' : (counterparts modules₁ modules₂ same).scope x' y') : x = x' ↔ y = y' := by
  obtain ⟨k, l, b, n, hat, hxy⟩ := hxy
  obtain ⟨k', l', b', n', hat', hxy'⟩ := hxy'
  obtain ⟨⟨g, file₁, hk, hx⟩, h, file₂, hl, hy⟩ := hat.scope_places hxy
  obtain ⟨⟨g', file₁', hk', hx'⟩, h', file₂', hl', hy'⟩ := hat'.scope_places hxy'
  obtain ⟨hiff, hb⟩ := hat.same_place hs hat'
  have hunique : k = k' → (x = x' ↔ y = y') := by
    intro hkk
    obtain rfl := hb hkk
    exact Twice.scopeUnique hat.agree.added₁.valid hat.agree.added₂.valid hxy hxy'
  constructor
  · rintro rfl
    exact (hunique (hs.bindable₁.scope_place hk hk' hx hx')).1 rfl
  · rintro rfl
    exact (hunique (hiff.2 (hs.bindable₂.scope_place hl hl' hy hy'))).2 rfl

/-- Things that are told apart by their places in two growing collections. -/
theorem Sharing.parallelUnique {size₁ size₂ : Nat → Nat} {count : Made → Nat} {i j i' j' : Nat}
    (hmono₁ : ∀ {k k'}, k ≤ k' → size₁ k ≤ size₁ k') (hmono₂ : ∀ {l l'}, l ≤ l' → size₂ l ≤ size₂ l')
    (hsize : ∀ {k l b n}, SharedAt modules₁ modules₂ same k l b n →
      size₁ (k + 1) = size₁ k + count n ∧ size₂ (l + 1) = size₂ l + count n)
    (hat : SharedAt modules₁ modules₂ same k l b n)
    (hat' : SharedAt modules₁ modules₂ same k' l' b' n')
    (hij : Parallel (size₁ k) (size₂ l) (count n) i j)
    (hij' : Parallel (size₁ k') (size₂ l') (count n') i' j') : i = i' ↔ j = j' := by
  obtain ⟨hsize₁, hsize₂⟩ := hsize hat
  obtain ⟨hsize₁', hsize₂'⟩ := hsize hat'
  obtain ⟨hi, hj⟩ := hij.bounds
  obtain ⟨hi', hj'⟩ := hij'.bounds
  rw [← hsize₁] at hi
  rw [← hsize₂] at hj
  rw [← hsize₁'] at hi'
  rw [← hsize₂'] at hj'
  obtain ⟨hiff, -⟩ := hat.same_place hs hat'
  constructor
  · rintro rfl
    obtain rfl := place_unique hmono₁ hi.1 hi.2 hi'.1 hi'.2
    obtain rfl := hiff.1 rfl
    exact (hij.unique hij').1 rfl
  · rintro rfl
    obtain rfl := place_unique hmono₂ hj.1 hj.2 hj'.1 hj'.2
    obtain rfl := hiff.2 rfl
    exact (hij.unique hij').2 rfl

theorem Sharing.declUnique {d e d' e' : DeclId}
    (hde : (counterparts modules₁ modules₂ same).decl d e)
    (hde' : (counterparts modules₁ modules₂ same).decl d' e') : d = d' ↔ e = e' := by
  obtain ⟨k, l, b, n, hat, hde⟩ := hde
  obtain ⟨k', l', b', n', hat', hde'⟩ := hde'
  have hunique : d.index = d'.index ↔ e.index = e'.index := by
    have hsize : ∀ {k l b n}, SharedAt modules₁ modules₂ same k l b n →
        (modules₁.indexAt (k + 1)).decls.size = (modules₁.indexAt k).decls.size + n.decls ∧
          (modules₂.indexAt (l + 1)).decls.size = (modules₂.indexAt l).decls.size + n.decls :=
      fun hat => ⟨hat.before.1 ▸ hat.agree.added₁.declsSize, hat.before.2 ▸ hat.agree.added₂.declsSize⟩
    change Parallel b.before₁.decls.size b.before₂.decls.size n.decls d.index e.index at hde
    change Parallel b'.before₁.decls.size b'.before₂.decls.size n'.decls d'.index e'.index at hde'
    rw [hat.before.1, hat.before.2] at hde
    rw [hat'.before.1, hat'.before.2] at hde'
    exact hs.parallelUnique (fun hk => (hs.bindable₁.indexAt_remains hk).declsSize)
      (fun hl => (hs.bindable₂.indexAt_remains hl).declsSize) hsize hat hat' hde hde'
  obtain ⟨i⟩ := d
  obtain ⟨j⟩ := e
  obtain ⟨i'⟩ := d'
  obtain ⟨j'⟩ := e'
  simpa using hunique

theorem Sharing.nodeUnique {i j i' j' : NodeId}
    (hij : (counterparts modules₁ modules₂ same).node i j)
    (hij' : (counterparts modules₁ modules₂ same).node i' j') : i = i' ↔ j = j' := by
  obtain ⟨k, l, b, n, hat, hij⟩ := hij
  obtain ⟨k', l', b', n', hat', hij'⟩ := hij'
  have hunique : i.index = i'.index ↔ j.index = j'.index := by
    have hsize : ∀ {k l b n}, SharedAt modules₁ modules₂ same k l b n →
        (modules₁.indexAt (k + 1)).typeSites.size = (modules₁.indexAt k).typeSites.size + n.types ∧
          (modules₂.indexAt (l + 1)).typeSites.size = (modules₂.indexAt l).typeSites.size + n.types :=
      fun hat => ⟨hat.before.1 ▸ hat.agree.added₁.typesSize, hat.before.2 ▸ hat.agree.added₂.typesSize⟩
    change Parallel b.before₁.typeSites.size b.before₂.typeSites.size n.types i.index j.index at hij
    change Parallel b'.before₁.typeSites.size b'.before₂.typeSites.size n'.types i'.index j'.index at hij'
    rw [hat.before.1, hat.before.2] at hij
    rw [hat'.before.1, hat'.before.2] at hij'
    exact hs.parallelUnique (fun hk => (hs.bindable₁.indexAt_remains hk).typesSize)
      (fun hl => (hs.bindable₂.indexAt_remains hl).typesSize) hsize hat hat' hij hij'
  obtain ⟨i⟩ := i
  obtain ⟨j⟩ := j
  obtain ⟨i'⟩ := i'
  obtain ⟨j'⟩ := j'
  simpa using hunique

/-- The annotations of shared files are annotations of the two programs. -/
theorem Sharing.node_lt {i j : NodeId} (hij : (counterparts modules₁ modules₂ same).node i j) :
    i.index < modules₁.bind.2.typeSites.size ∧ j.index < modules₂.bind.2.typeSites.size := by
  obtain ⟨k, l, b, n, hat, hij⟩ := hij
  obtain ⟨hi, hj⟩ := hij.bounds
  rw [← hat.agree.added₁.typesSize] at hi
  rw [← hat.agree.added₂.typesSize] at hj
  rw [← indexAt_length, ← indexAt_length]
  exact ⟨Nat.lt_of_lt_of_le hi.2 (hs.bindable₁.remains_bind hat.lt.1).typesSize,
    Nat.lt_of_lt_of_le hj.2 (hs.bindable₂.remains_bind hat.lt.2).typesSize⟩

/-- The indices of two programs are alike in what was made for the files that they share. -/
theorem Sharing.alike :
    (counterparts modules₁ modules₂ same).Alike modules₁.bind.2 modules₂.bind.2 where
  scopes := by
    rintro x y ⟨k, l, b, n, hat, hxy⟩
    obtain ⟨⟨g, file₁, hk, hx⟩, h, file₂, hl, hy⟩ := hat.scope_places hxy
    rw [(hs.bindable₁.scope_bind hk hx).1, (hs.bindable₂.scope_bind hl hy).1]
    exact (hat.agree.scopes hxy).mono hat.within
  decls := by
    rintro d e ⟨k, l, b, n, hat, hde⟩
    rw [← indexAt_length, ← indexAt_length]
    exact hde.rel_grown hat.agree.added₁.declsSize hat.agree.added₂.declsSize
      (hs.bindable₁.remains_bind hat.lt.1).decls (hs.bindable₂.remains_bind hat.lt.2).decls
      (rel_mono (fun _ _ => .mono hat.within) (hat.agree.decls hde))
  sites := by
    rintro i j ⟨k, l, b, n, hat, hij⟩
    rw [← indexAt_length, ← indexAt_length]
    exact hij.rel_grown hat.agree.added₁.typesSize hat.agree.added₂.typesSize
      (hs.bindable₁.remains_bind hat.lt.1).types (hs.bindable₂.remains_bind hat.lt.2).types
      (rel_mono (fun _ _ => .mono hat.within) (hat.agree.types hij))
  functions := by
    rintro f g ⟨k, l, b, n, hat, hfg⟩
    rw [← indexAt_length, ← indexAt_length]
    exact hfg.rel_grown hat.agree.added₁.functionsSize hat.agree.added₂.functionsSize
      (hs.bindable₁.remains_bind hat.lt.1).functions (hs.bindable₂.remains_bind hat.lt.2).functions
      (rel_mono (fun _ _ => .mono hat.within) (hat.agree.functions hfg))
  modules := by
    intro g h hsame
    obtain ⟨file₁, file₂, hfile₁, hfile₂, -⟩ := hs.files hsame
    obtain ⟨k, hk⟩ := hs.bindable₁.all hfile₁
    obtain ⟨l, hl⟩ := hs.bindable₂.all hfile₂
    obtain ⟨b, n, hat, -⟩ := hs.bindFile hk hl hsame
    rw [hs.bindable₁.moduleScope_bind hk, hs.bindable₂.moduleScope_bind hl]
    refine ⟨k, l, b, n, hat, .inl ?_⟩
    obtain ⟨g', h', file₁', file₂', hk', hl', -, rfl⟩ := hat.files
    obtain ⟨rfl, -⟩ := Prod.mk.inj (Option.some.inj (hk.symm.trans hk'))
    obtain ⟨rfl, -⟩ := Prod.mk.inj (Option.some.inj (hl.symm.trans hl'))
    exact ⟨rfl, rfl⟩
  below₁ := by
    rintro x y ⟨k, l, b, n, hat, hxy⟩
    obtain ⟨⟨g, file₁, hk, hx⟩, -⟩ := hat.scope_places hxy
    exact (hs.bindable₁.scope_bind hk hx).2
  below₂ := by
    rintro x y ⟨k, l, b, n, hat, hxy⟩
    obtain ⟨-, h, file₂, hl, hy⟩ := hat.scope_places hxy
    exact (hs.bindable₂.scope_bind hl hy).2
  global₁ := hs.bindable₁.global_bind
  global₂ := hs.bindable₂.global_bind
  notGlobal := by
    rintro x y ⟨k, l, b, n, hat, hxy⟩
    obtain ⟨⟨g, file₁, hk, hx⟩, h, file₂, hl, hy⟩ := hat.scope_places hxy
    exact ⟨hs.bindable₁.ne_global hx, hs.bindable₂.ne_global hy⟩
  scopeUnique := hs.scopeUnique
  declUnique := hs.declUnique
  nodeUnique := hs.nodeUnique

end

/-- Two programs that have been loaded share the files at the same locations. -/
theorem Sharing.of_loaded {tree : FileTree} {roots₁ roots₂ : List Path}
    {discovery₁ discovery₂ : Discovery} (hrooted : tree.IsRooted)
    (hloaded₁ : Discovery.Loaded tree roots₁ discovery₁)
    (hloaded₂ : Discovery.Loaded tree roots₂ discovery₂)
    (hlocal₁ : NothingGlobal ⟨discovery₁.files, discovery₁.finished.reverse⟩)
    (hlocal₂ : NothingGlobal ⟨discovery₂.files, discovery₂.finished.reverse⟩) :
    Sharing ⟨discovery₁.files, discovery₁.finished.reverse⟩
      ⟨discovery₂.files, discovery₂.finished.reverse⟩
      (SameFile tree discovery₁.files discovery₂.files) where
  bindable₁ := .of_loaded hloaded₁ hlocal₁
  bindable₂ := .of_loaded hloaded₂ hlocal₂
  files := by
    intro g h hsame
    obtain ⟨location, ⟨file₁, hfile₁, -⟩, file₂, hfile₂, -⟩ := id hsame
    exact ⟨file₁, file₂, hfile₁, hfile₂, hloaded₁.sameFile hrooted hloaded₂ hsame hfile₁ hfile₂⟩
  unique := by
    rintro g h g' h' ⟨location, hg, hh⟩ ⟨location', hg', hh'⟩
    constructor
    · rintro rfl
      obtain rfl := hg.unique hg'
      exact hloaded₂.sound.injective hh hh'
    · rintro rfl
      obtain rfl := hh.unique hh'
      exact hloaded₁.sound.injective hg hg'

end Modules

end ComponentSchema
