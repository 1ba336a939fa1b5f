import ComponentSchema.Proofs.Comparison.RenumberedModules
import ComponentSchema.Proofs.Loader.FileSpellings

/-!
# Rewritten files

Some files of a program are rewritten, so that their trees differ in what neither the loading of files
nor binding looks at. Then the same files are loaded, in the same order, with the same errors, and
the program has the same document.

Hypotheses. `FileTree.IsRooted`: every entry stands in a directory. `Harmless`: a rewritten file has the
same specifiers, is a script or a module as before, and is bound in step with what it was.

Results.
* `parseFile_rewritten`: a rewritten file parses to a rewritten tree, and all else parses as before.
* `Modules.load_rewritten`: the files of the two programs correspond one by one.
* `documentFiles_rewritten`: it is enough to compare the documents of rewritten modules.
* `Harmless.documentFiles_eq`: the documents are the same.
* `Program.load_alone`, `documentFiles_alone`: the program of a file that imports nothing.
-/
namespace ComponentSchema

open Syntax

/-! ## Computations that may fail -/

/-- Two computations with answers for which `R` holds, or the same failure. -/
inductive ExceptRel {ε α β : Type} (R : α → β → Prop) : Except ε α → Except ε β → Prop where
  | error (cause : ε) : ExceptRel R (.error cause) (.error cause)
  | ok {a : α} {b : β} (h : R a b) : ExceptRel R (.ok a) (.ok b)

namespace ExceptRel

variable {ε α β γ δ ι κ : Type} {R : α → β → Prop} {S : γ → δ → Prop}

theorem bind {first : Except ε α} {second : Except ε β} {next : α → Except ε γ}
    {next' : β → Except ε δ} (h : ExceptRel R first second)
    (hnext : ∀ a b, R a b → ExceptRel S (next a) (next' b)) :
    ExceptRel S (first >>= next) (second >>= next') := by
  cases h with
  | error cause => exact .error cause
  | ok hr => exact hnext _ _ hr

theorem map {first : Except ε α} {second : Except ε β} {f : α → γ} {g : β → δ}
    (h : ExceptRel R first second) (hfg : ∀ a b, R a b → S (f a) (g b)) :
    ExceptRel S (first.map f) (second.map g) := by
  cases h with
  | error cause => exact .error cause
  | ok hr => exact .ok (hfg _ _ hr)

theorem foldlM {step : α → ι → Except ε α} {step' : β → ι → Except ε β} (items : List ι) {start : α}
    {start' : β} (h : R start start')
    (hstep : ∀ a b item, R a b → ExceptRel R (step a item) (step' b item)) :
    ExceptRel R (items.foldlM step start) (items.foldlM step' start') := by
  induction items generalizing start start' with
  | nil => exact .ok h
  | cons item rest ih =>
    rw [List.foldlM_cons, List.foldlM_cons]
    exact (hstep _ _ item h).bind fun _ _ hr => ih hr

theorem mapM {step : ι → Except ε α} {step' : ι → Except ε β} (items : List ι)
    (hstep : ∀ item, ExceptRel R (step item) (step' item)) :
    ExceptRel (List.Forall₂ R) (items.mapM step) (items.mapM step') := by
  induction items with
  | nil => exact .ok .nil
  | cons item rest ih =>
    rw [List.mapM_cons, List.mapM_cons]
    exact (hstep item).bind fun _ _ hr => ih.bind fun _ _ hrs => .ok (.cons hr hrs)

end ExceptRel

/-! ## Items -/

theorem Syntax.SourceTree.specifiers_congr {first second : SourceTree}
    (h : first.items.map (fun item => item.kind.source?.bind (·.exact)) =
      second.items.map fun item => item.kind.source?.bind (·.exact)) :
    first.specifiers = second.specifiers := by
  have hmap : ∀ tree : SourceTree, tree.specifiers =
      (tree.items.map fun item => item.kind.source?.bind (·.exact)).filterMap id := by
    intro tree
    rw [List.filterMap_map]
    rfl
  rw [hmap, hmap, h]

theorem Syntax.SourceTree.isScript_congr {first second : SourceTree}
    (h : first.items.map (fun item => !item.kind.isModuleItem) =
      second.items.map fun item => !item.kind.isModuleItem) : first.isScript = second.isScript := by
  have hmap : ∀ tree : SourceTree, tree.isScript =
      (tree.items.map fun item => !item.kind.isModuleItem).all id := by
    intro tree
    rw [List.all_map]
    rfl
  rw [hmap, hmap, h]

/-! ## File trees -/

/-- What stands at a location is the same, or a file whose text was rewritten: both texts parse, to
trees for which `L` holds. -/
inductive Entry.Rewritten (L : SourceTree → SourceTree → Prop) (location : Location) :
    Entry → Entry → Prop where
  | same (entry : Entry) : Rewritten L location entry entry
  | source {name text text' : String} {parsed parsed' : SourceTree}
    (hname : location.getLast? = some name)
    (hparsed : SourceTree.parse (Variant.ofPath name) text = .ok parsed)
    (hparsed' : SourceTree.parse (Variant.ofPath name) text' = .ok parsed') (h : L parsed parsed') :
    Rewritten L location (.file (some text)) (.file (some text'))

/-- Two file trees in which the same stands at the same locations, but for files whose texts were
rewritten. -/
structure FileTree.Rewritten (L : SourceTree → SourceTree → Prop) (tree tree' : FileTree) : Prop where
  current : tree.current = tree'.current
  entries : List.Forall₂ (fun first second => first.1 = second.1 ∧
    Entry.Rewritten L first.1 first.2 second.2) tree.entries tree'.entries

namespace FileTree.Rewritten

variable {L : SourceTree → SourceTree → Prop} {tree tree' : FileTree} (h : tree.Rewritten L tree')
include h

theorem entry? (location : Location) :
    Option.Rel (Entry.Rewritten L location) (tree.entry? location) (tree'.entry? location) := by
  rcases location with _ | ⟨name, rest⟩
  · exact .some (.same _)
  · show Option.Rel _ (tree.entries.lookup (name :: rest)) (tree'.entries.lookup (name :: rest))
    have hentries := h.entries
    generalize tree.entries = entries at hentries
    generalize tree'.entries = entries' at hentries
    induction hentries with
    | nil => exact .none
    | @cons first second _ _ hfirst _ ih =>
      obtain ⟨location, entry⟩ := first
      obtain ⟨location', entry'⟩ := second
      obtain ⟨rfl, hentry⟩ := hfirst
      rw [List.lookup_cons, List.lookup_cons]
      by_cases heq : name :: rest = location
      · subst heq
        simpa using Option.Rel.some hentry
      · rw [beq_eq_false_iff_ne.2 heq]
        exact ih

theorem step (location : Location) (piece : List Char) :
    tree.step location piece = tree'.step location piece := by
  have hsome : ∀ location, (tree.entry? location).isSome = (tree'.entry? location).isSome := by
    intro location
    rcases rel_cases (h.entry? location) with ⟨hx, hy⟩ | ⟨_, _, hx, hy, -⟩
    · rw [hx, hy]
    · rw [hx, hy]
      rfl
  unfold FileTree.step
  rcases rel_cases (h.entry? location) with ⟨hx, hy⟩ | ⟨entry, entry', hx, hy, hentry⟩
  · rw [hx, hy]
  · rw [hx, hy]
    cases hentry with
    | same => simp only [hsome]
    | source => rfl

/-- A path leads to the same place. -/
theorem locate (path : Path) : tree.locate path = tree'.locate path := by
  have hstep : tree.step = tree'.step :=
    funext fun location => funext fun piece => h.step location piece
  rw [FileTree.locate, FileTree.locate, hstep, h.current]

theorem isFile (path : Path) : tree.isFile path = tree'.isFile path := by
  unfold FileTree.isFile FileTree.find?
  rw [← h.locate path]
  cases tree.locate path with
  | error => rfl
  | ok location =>
    rcases rel_cases (h.entry? location) with ⟨hx, hy⟩ | ⟨entry, entry', hx, hy, hentry⟩
    · simp only [hx, hy]
    · simp only [hx, hy]
      cases hentry <;> rfl

theorem resolveImport (path : Path) (specifier : String) :
    ComponentSchema.resolveImport tree path specifier =
      ComponentSchema.resolveImport tree' path specifier := by
  have hfile : tree.isFile = tree'.isFile := funext h.isFile
  simp only [ComponentSchema.resolveImport, hfile]

end FileTree.Rewritten

/-- A rewritten file parses to a rewritten tree, and all else parses as before. -/
theorem parseFile_rewritten {L : SourceTree → SourceTree → Prop} {tree tree' : FileTree}
    (hrooted : tree.IsRooted) (hrefl : ∀ parsed, L parsed parsed) (h : tree.Rewritten L tree')
    (path : Path) : ExceptRel L (parseFile tree path) (parseFile tree' path) := by
  unfold parseFile FileTree.read
  rw [← h.locate path]
  rcases hlocate : tree.locate path with cause | location
  · exact .error _
  · simp only [bind, Except.bind]
    rcases rel_cases (h.entry? location) with ⟨hx, hy⟩ | ⟨entry, entry', hx, hy, hentry⟩
    · rw [hx, hy]
      exact .error _
    · rw [hx, hy]
      cases hentry with
      | same =>
        rcases entry with _ | _ | text
        · exact .error _
        · exact .error _
        · simp only
          cases SourceTree.parse (Variant.ofPath path.text) text with
          | error => exact .error _
          | ok parsed => exact .ok (hrefl parsed)
      | source hname hparsed hparsed' hl =>
        have hvariant := variant_of_name hrooted ⟨hlocate, _, hx⟩ hname
        simp only [hvariant, hparsed, hparsed']
        exact .ok hl

/-! ## Loading -/

/-- Two files of which one may be rewritten. -/
structure ModuleFile.Rewritten (L : SourceTree → SourceTree → Prop) (first second : ModuleFile) :
    Prop where
  path : first.path = second.path
  tree : L first.tree second.tree
  dependencies : first.dependencies = second.dependencies

/-- The same files have been found, some of them rewritten. -/
structure Discovery.Rewritten (L : SourceTree → SourceTree → Prop) (first second : Discovery) :
    Prop where
  filesSize : first.files.size = second.files.size
  files : ∀ i : Nat, Option.Rel (ModuleFile.Rewritten L) first.files[i]? second.files[i]?
  known : first.known = second.known
  visited : first.visited = second.visited
  finished : first.finished = second.finished

/-- Two programs of which some files may be rewritten. -/
structure Modules.Rewritten (L : SourceTree → SourceTree → Prop) (first second : Modules) : Prop where
  filesSize : first.files.size = second.files.size
  files : ∀ i : Nat, Option.Rel (ModuleFile.Rewritten L) first.files[i]? second.files[i]?
  order : first.order = second.order

section

variable {L : SourceTree → SourceTree → Prop} {tree tree' : FileTree}
  {discovery discovery' : Discovery}

namespace Discovery.Rewritten

theorem known? (hd : discovery.Rewritten L discovery') (h : tree.Rewritten L tree') (path : Path) :
    discovery.known? tree path = discovery'.known? tree' path := by
  rw [Discovery.known?, Discovery.known?, h.locate, hd.known]

theorem register (hd : discovery.Rewritten L discovery') (h : tree.Rewritten L tree') (path : Path)
    {parsed parsed' : SourceTree} (hparsed : L parsed parsed') :
    (discovery.register tree path parsed).1 = (discovery'.register tree' path parsed').1 ∧
      (discovery.register tree path parsed).2.Rewritten L
        (discovery'.register tree' path parsed').2 := by
  refine ⟨congrArg ModuleId.mk hd.filesSize, ?_, fun i => ?_, ?_, hd.visited, hd.finished⟩
  · simpa [Discovery.register] using hd.filesSize
  · show Option.Rel _ (discovery.files.push _)[i]? (discovery'.files.push _)[i]?
    rw [Array.getElem?_push, Array.getElem?_push, ← hd.filesSize]
    split
    · exact .some ⟨rfl, hparsed, rfl⟩
    · exact hd.files i
  · simp only [Discovery.register, h.locate, hd.known, hd.filesSize]

theorem addDependency (hd : discovery.Rewritten L discovery') (id : ModuleId) (specifier : String)
    (dependency : ModuleId) : (discovery.addDependency id specifier dependency).Rewritten L
      (discovery'.addDependency id specifier dependency) := by
  refine ⟨by simpa [Discovery.addDependency] using hd.filesSize, fun i => ?_, hd.known, hd.visited,
    hd.finished⟩
  simp only [Discovery.addDependency, Array.getElem?_modify]
  split
  · rcases rel_cases (hd.files i) with ⟨hx, hy⟩ | ⟨file, file', hx, hy, hfile⟩
    · rw [hx, hy]
      exact .none
    · rw [hx, hy]
      exact .some ⟨hfile.path, hfile.tree, congrArg ((specifier, dependency) :: ·) hfile.dependencies⟩
  · exact hd.files i

end Discovery.Rewritten

variable (hrooted : tree.IsRooted) (hrefl : ∀ parsed, L parsed parsed)
  (hspecifiers : ∀ {parsed parsed'}, L parsed parsed' → parsed.specifiers = parsed'.specifiers)
  (h : tree.Rewritten L tree')
include hrooted hrefl h

theorem require_rewritten (hd : discovery.Rewritten L discovery') (path : Path) :
    ExceptRel (fun first second => first.1 = second.1 ∧ first.2.Rewritten L second.2)
      (discovery.require tree path) (discovery'.require tree' path) := by
  unfold Discovery.require
  rw [hd.known? h]
  split
  · exact .ok ⟨rfl, hd⟩
  · exact (parseFile_rewritten hrooted hrefl h path).map fun _ _ hparsed => hd.register h path hparsed

include hspecifiers

/-- A visit goes the same way. -/
theorem visit_rewritten (depth : Nat) (id : ModuleId) (hd : discovery.Rewritten L discovery') :
    ExceptRel (Discovery.Rewritten L) (discovery.visit tree depth id)
      (discovery'.visit tree' depth id) := by
  induction depth generalizing id discovery discovery' with
  | zero => exact .ok hd
  | succ depth ih =>
    rw [Discovery.visit, Discovery.visit, hd.visited]
    split
    · exact .ok hd
    · rcases rel_cases (hd.files id.index) with ⟨hx, hy⟩ | ⟨file, file', hx, hy, hfile⟩
      · rw [hx, hy]
        exact .ok hd
      · rw [hx, hy]
        simp only [← hspecifiers hfile.tree, ← hfile.path]
        refine ExceptRel.bind (R := Discovery.Rewritten L) (.foldlM _ ⟨hd.filesSize, hd.files, hd.known,
          rfl, hd.finished⟩ fun discovery discovery' specifier hd => ?_) fun _ _ hd => .ok ?_
        · unfold Discovery.follow
          rw [h.resolveImport]
          cases resolveImport tree' file.path specifier with
          | error => exact .error _
          | ok found =>
            cases found with
            | none => exact .ok hd
            | some found =>
              refine (require_rewritten hrooted hrefl h hd found).bind ?_
              rintro ⟨dependency, discovery⟩ ⟨_, discovery'⟩ ⟨rfl, hd⟩
              exact ih dependency (hd.addDependency id specifier dependency)
        · exact ⟨hd.filesSize, hd.files, hd.known, hd.visited, congrArg (id :: ·) hd.finished⟩

omit hrooted hrefl hspecifiers in
theorem addRoots_rewritten {roots roots' : List (Path × SourceTree)}
    (hroots : List.Forall₂ (fun first second => first.1 = second.1 ∧ L first.2 second.2) roots roots')
    (hd : discovery.Rewritten L discovery') :
    (Discovery.addRoots tree roots discovery).1 = (Discovery.addRoots tree' roots' discovery').1 ∧
      (Discovery.addRoots tree roots discovery).2.Rewritten L
        (Discovery.addRoots tree' roots' discovery').2 := by
  induction hroots generalizing discovery discovery' with
  | nil => exact ⟨rfl, hd⟩
  | @cons first second _ _ hfirst _ ih =>
    obtain ⟨path, parsed⟩ := first
    obtain ⟨path', parsed'⟩ := second
    obtain ⟨rfl, hparsed⟩ := hfirst
    simp only [Discovery.addRoots, hd.known? h]
    split
    · exact ih hd
    · obtain ⟨hid, hregistered⟩ := hd.register h path hparsed
      obtain ⟨hids, hadded⟩ := ih hregistered
      exact ⟨by rw [hid, hids], hadded⟩

/-- The same files are loaded in the same order, some of them rewritten, or loading fails the same
way. -/
theorem Modules.load_rewritten (roots : List Path) :
    ExceptRel (Modules.Rewritten L) (Modules.load tree roots) (Modules.load tree' roots) := by
  unfold Modules.load
  have hlength : tree.entries.length = tree'.entries.length := h.entries.length_eq
  have hparsed : ExceptRel (List.Forall₂ fun first second => first.1 = second.1 ∧ L first.2 second.2)
      (roots.mapM fun root => (parseFile tree root).map (root, ·))
      (roots.mapM fun root => (parseFile tree' root).map (root, ·)) :=
    .mapM roots fun root => (parseFile_rewritten hrooted hrefl h root).map fun _ _ hl => ⟨rfl, hl⟩
  refine hparsed.bind fun parsed parsed' hroots => ?_
  have hstart : Discovery.start.Rewritten L Discovery.start :=
    ⟨rfl, fun _ => .none, rfl, rfl, rfl⟩
  obtain ⟨hids, hadded⟩ := addRoots_rewritten h hroots hstart
  simp only [← hids, ← hlength]
  refine ExceptRel.bind (R := Discovery.Rewritten L) (.foldlM _ hadded fun _ _ id hd => ?_)
    fun _ _ hd => .ok ⟨hd.filesSize, hd.files, congrArg List.reverse hd.finished⟩
  exact visit_rewritten hrooted hrefl hspecifiers h _ id hd

/-- The documents of the programs are the same, if those of rewritten modules are. -/
theorem documentFiles_rewritten (roots : List Path) (mode : SchemaMode)
    (hdocument : ∀ {modules modules' : Modules}, Modules.load tree roots = .ok modules →
      Modules.load tree' roots = .ok modules' → modules.Rewritten L modules' →
        modules.program.document mode = modules'.program.document mode) :
    documentFiles tree roots mode = documentFiles tree' roots mode := by
  unfold documentFiles
  rw [Program.load_eq, Program.load_eq]
  have hmodules := Modules.load_rewritten hrooted hrefl hspecifiers h roots
  generalize Modules.load tree roots = loaded at hmodules hdocument
  generalize Modules.load tree' roots = loaded' at hmodules hdocument
  cases hmodules with
  | error cause => rfl
  | ok hmodules => exact congrArg Except.ok (hdocument rfl rfl hmodules)

end

/-! ## Programs -/

/-- Rewriting that neither loading nor binding takes notice of. -/
structure Harmless (L : SourceTree → SourceTree → Prop) : Prop where
  refl : ∀ parsed, L parsed parsed
  specifiers : ∀ {parsed parsed'}, L parsed parsed' → parsed.specifiers = parsed'.specifiers
  isScript : ∀ {parsed parsed'}, L parsed parsed' → parsed.isScript = parsed'.isScript
  binding : ∀ (t : Twins) {first second : ModuleFile}, L first.tree second.tree →
    first.path = second.path →
    (∀ source, Option.Rel t.module (first.dependency? source) (second.dependency? source)) →
      t.SameBinding Eq first second

section

variable {L : SourceTree → SourceTree → Prop} {modules modules' : Modules}

theorem Modules.Rewritten.forall₂ (h : modules.Rewritten L modules') :
    List.Forall₂ (ModuleFile.Rewritten L) modules.files.toList modules'.files.toList := by
  refine List.forall₂_iff_get.2 ⟨by simpa using h.filesSize, fun i hi hi' => ?_⟩
  simp only [Array.length_toList] at hi hi'
  have hfile := h.files i
  rw [Array.getElem?_eq_getElem hi, Array.getElem?_eq_getElem hi'] at hfile
  cases hfile with
  | some hfile => simpa using hfile

/-- The modules have the same scopes before they are bound. -/
theorem Modules.Rewritten.unbound (hscript : ∀ {parsed parsed'}, L parsed parsed' →
    parsed.isScript = parsed'.isScript) (h : modules.Rewritten L modules') :
    modules.unbound = modules'.unbound := by
  have hfiles := h.forall₂
  unfold Modules.unbound
  generalize modules.files.toList = files at hfiles
  generalize modules'.files.toList = files' at hfiles
  have heq : files.forM Binding.moduleScope = files'.forM Binding.moduleScope := by
    induction hfiles with
    | nil => rfl
    | @cons file file' rest rest' hfile _ ih =>
      have hscope : Binding.moduleScope file = Binding.moduleScope file' := by
        rw [Binding.moduleScope, Binding.moduleScope, hscript hfile.tree]
      show (Binding.moduleScope file >>= fun _ => rest.forM _) =
        Binding.moduleScope file' >>= fun _ => rest'.forM _
      rw [hscope, ih]
  rw [heq]

/-- The same files are bound, some of them rewritten. -/
theorem Modules.Rewritten.bound (h : modules.Rewritten L modules') :
    List.Forall₂ (fun first second => first.1 = second.1 ∧ first.2.Rewritten L second.2)
      modules.bound modules'.bound := by
  unfold Modules.bound
  rw [← h.order]
  refine List.rel_filterMap (R := Eq) ?_ (List.forall₂_same.2 fun _ _ => rfl)
  rintro g _ rfl
  show Option.Rel _ ((modules.files[g.index]?).map (g, ·)) ((modules'.files[g.index]?).map (g, ·))
  rcases rel_cases (h.files g.index) with ⟨hx, hy⟩ | ⟨file, file', hx, hy, hfile⟩
  · rw [hx, hy]
    exact .none
  · rw [hx, hy]
    exact .some ⟨rfl, hfile⟩

theorem ModuleFile.Rewritten.dependency? {first second : ModuleFile} (h : first.Rewritten L second)
    (source : StringLiteral) : first.dependency? source = second.dependency? source := by
  rw [ModuleFile.dependency?, ModuleFile.dependency?, h.dependencies]

/-- The modules of a rewritten program have the ids that they had. -/
theorem Modules.Rewritten.renumbered (hl : Harmless L) (h : modules.Rewritten L modules') :
    Renumbered Eq Eq modules modules' := by
  have hscope : ∀ {file file' : ModuleFile}, file.Rewritten L file' → file.hasScope = file'.hasScope :=
    fun hfile => congrArg (!·) (hl.isScript hfile.tree)
  have hunique : Relator.BiUnique (@Eq ModuleId) :=
    ⟨fun _ _ _ hx hy => hx.trans hy.symm, fun _ _ _ hx hy => hx.symm.trans hy⟩
  refine ⟨hunique, ?_, h.order ▸ List.forall₂_refl _,
    countP_of_forall₂ h.forall₂ fun _ _ => hscope⟩
  rintro g _ rfl
  refine rel_mono (fun file file' hfile => ⟨hscope hfile, fun t ht => ?_⟩) (h.files g.index)
  refine hl.binding t hfile.tree hfile.path fun source => ?_
  rw [ModuleFile.dependency?, ModuleFile.dependency?, hfile.dependencies, ht]
  cases source.exact.bind fun specifier => file'.dependencies.lookup specifier with
  | none => exact .none
  | some => exact .some rfl

/-- Rewritten files are documented as before. -/
theorem Harmless.documentFiles_eq (hl : Harmless L) {tree tree' : FileTree} (hrooted : tree.IsRooted)
    (h : tree.Rewritten L tree') (roots : List Path) (mode : SchemaMode) :
    documentFiles tree roots mode = documentFiles tree' roots mode :=
  documentFiles_rewritten hrooted hl.refl hl.specifiers h roots mode fun _ _ hmodules =>
    ((hmodules.renumbered hl).document_alike mode).eq

end

/-! ## Programs of one file -/

section

variable {tree : FileTree} {path : Path} {source : SourceTree}

theorem Modules.load_alone (hparsed : parseFile tree path = .ok source)
    (hspecifiers : source.specifiers = []) :
    Modules.load tree [path] = .ok ⟨#[⟨path, source, []⟩], [⟨0⟩]⟩ := by
  have hroots : [path].mapM (fun root => (parseFile tree root).map (root, ·)) = .ok [(path, source)] := by
    simp [hparsed, Except.map]
  have hknown : Discovery.start.known? tree path = none := by
    unfold Discovery.known?
    split <;> rfl
  obtain ⟨known, hadd⟩ : ∃ known, Discovery.addRoots tree [(path, source)] Discovery.start =
      ([⟨0⟩], ⟨#[⟨path, source, []⟩], known, [], []⟩) := by
    simp only [Discovery.addRoots, hknown]
    exact ⟨_, rfl⟩
  unfold Modules.load
  rw [hroots]
  show Except.bind _ _ = _
  simp only [Except.bind, hadd]
  simp [Discovery.visit, hspecifiers]
  rfl

/-- The program of a file that imports nothing. -/
def Syntax.SourceTree.program (path : Path) (source : SourceTree) : Program :=
  Modules.program ⟨#[⟨path, source, []⟩], [⟨0⟩]⟩

variable {text : String} (hread : tree.read path = .ok text)
  (hparsed : SourceTree.parse (Variant.ofPath path.text) text = .ok source)
  (hspecifiers : source.specifiers = [])
include hread hparsed hspecifiers

theorem Program.load_alone : Program.load tree [path] = .ok (source.program path) := by
  have hfile : parseFile tree path = .ok source := by
    unfold parseFile
    rw [hread]
    dsimp only
    rw [hparsed]
  rw [Program.load_eq, Modules.load_alone hfile hspecifiers]
  rfl

theorem documentFiles_alone (mode : SchemaMode) :
    documentFiles tree [path] mode = .ok ((source.program path).document mode) := by
  rw [documentFiles, Program.load_alone hread hparsed hspecifiers]
  rfl

end

end ComponentSchema
