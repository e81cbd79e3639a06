import DriversFramework.HdiImports

/-! A file is kept under the full name it declares, and looked up under the name by which it is
imported. -/
namespace DriversFramework.HdiParser.ModuleParser

open LoopPrograms LoopPrograms.Prog FileDetail Relation

variable (fs : FileSystem) (options : Options) (source : Name)

def Imports (d d' : FileDetail) : Prop :=
 ∃ n ∈ d.imports, Reads fs options (importsToPath n) d'

/-- A file that the imports lead to from the source file. -/
def Reachable (d : FileDetail) : Prop :=
 ∃ d₀, Reads fs options source d₀ ∧ ReflTransGen (Imports fs options) d₀ d

/-- Every reachable file declares the package that goes with the name it is imported by. -/
def Declared : Prop :=
 (∃ d₀, Reads fs options source d₀) ∧ ∀ d, Reachable fs options source d → ∀ n ∈ d.imports,
  ∃ d', Reads fs options (importsToPath n) d' ∧ d'.getFullName = n

def Acyclic : Prop :=
 ∀ d, Reachable fs options source d → ¬ TransGen (Imports fs options) d d

/-- The list has every reachable file once, behind the files it imports. -/
structure CompileOrder (compileFiles : List Name) : Prop where
 nodup : compileFiles.Nodup
 mem : ∀ path, path ∈ compileFiles ↔ ∃ d, Reachable fs options source d ∧ d.idlFilePath = path
 order : ∀ d d', Reachable fs options source d → Imports fs options d d' →
  ∀ a b, compileFiles = a ++ d.idlFilePath :: b → d'.idlFilePath ∈ a

def Resolves (walks : Walks) : Prop :=
 ∃ ok m, (parserDependencies fs options walks source).Runs {} ok m ∧
  (Declared fs options source → (ok = true ↔ Acyclic fs options source) ∧
   (ok = true → CompileOrder fs options source m.compileFiles))

/-- An endless chain of imports on which no file is imported by a full name that a file before
it declares. -/
def Endless : Prop :=
 ∃ (file : ℕ → FileDetail) (name : ℕ → Name), Reads fs options source (file 0) ∧
  ∀ i, name i ∈ (file i).imports ∧ Reads fs options (importsToPath (name i)) (file (i + 1)) ∧
   ∀ j ≤ i, name i ≠ (file j).getFullName

/-- No reachable file imports the full name of the source file. -/
def SourceApart : Prop :=
 ∀ d₀ d, Reads fs options source d₀ → Reachable fs options source d →
  d₀.getFullName ∉ d.imports

variable {fs options source} {walks : Walks} {m t : ModuleParser} {d d' d₀ : FileDetail} {ok : Bool}
 {files : FileDetailMap}

section Endless

/-- The chain goes on from `d` without a name of `known`. -/
def EndlessFrom (fs : FileSystem) (options : Options) (known : List Name) (d : FileDetail) : Prop :=
 ∃ (file : ℕ → FileDetail) (name : ℕ → Name), file 0 = d ∧
  ∀ i, name i ∈ (file i).imports ∧ Reads fs options (importsToPath (name i)) (file (i + 1)) ∧
   name i ∉ known ∧ ∀ j ≤ i, name i ≠ (file j).getFullName

theorem EndlessFrom.next {known : List Name} (h : EndlessFrom fs options known d) :
 ∃ n ∈ d.imports, n ∉ known ∧ ∃ d', Reads fs options (importsToPath n) d' ∧
  ∀ known', (∀ k ∈ known', k = d'.getFullName ∨ k ∈ known) →
   EndlessFrom fs options known' d' := by
 obtain ⟨file, name, rfl, step⟩ := h
 refine ⟨name 0, (step 0).1, (step 0).2.2.1, file 1, (step 0).2.1, fun known' more => ?_⟩
 refine ⟨fun i => file (i + 1), fun i => name (i + 1), rfl, fun i => ?_⟩
 obtain ⟨inside, reads, new, apart⟩ := step (i + 1)
 refine ⟨inside, reads, fun mem => ?_, fun j le => apart (j + 1) (by omega)⟩
 rcases more _ mem with same | old
 · exact apart 1 (by omega) same
 · exact new old

/-- The imports are walked over along a chain that does not end. -/
def Follows (fs : FileSystem) (options : Options) (walks : Walks) : Prop :=
 ∀ files d, EndlessFrom fs options (files.map Prod.fst) d → ∃ n rest d',
  walks.imports files d = n :: rest ∧ n ∉ files.map Prod.fst ∧
   Reads fs options (importsToPath n) d' ∧
    ∀ known', (∀ k ∈ known', k = d'.getFullName ∨ k ∈ files.map Prod.fst) →
     EndlessFrom fs options known' d'

variable (fs options) in
theorem exists_follows : ∃ walks, Follows fs options walks := by
 have order : ∀ (files : FileDetailMap) (d : FileDetail), ∃ names : List Name,
  names.Perm d.imports ∧ (EndlessFrom fs options (files.map Prod.fst) d → ∃ n rest d',
   names = n :: rest ∧ n ∉ files.map Prod.fst ∧ Reads fs options (importsToPath n) d' ∧
    ∀ known', (∀ k ∈ known', k = d'.getFullName ∨ k ∈ files.map Prod.fst) →
     EndlessFrom fs options known' d') := by
  intro files d
  by_cases endless : EndlessFrom fs options (files.map Prod.fst) d
  · obtain ⟨n, mem, new, d', reads, next⟩ := endless.next
    exact ⟨n :: d.imports.erase n, (List.perm_cons_erase mem).symm,
     fun _ => ⟨n, d.imports.erase n, d', rfl, new, reads, next⟩⟩
  · exact ⟨d.imports, .refl _, fun h => absurd h endless⟩
 choose imports perm follows using order
 exact ⟨⟨imports, id, perm, fun _ => .refl _⟩, follows⟩

theorem stuck_of_follows (follows : Follows fs options walks)
 (endless : EndlessFrom fs options (keys m) d) : Stuck fs options walks m d := by
 intro depth
 induction depth generalizing m d with
 | zero =>
  rintro ⟨_, _, _, run⟩
  cases run
 | succ depth ih =>
  rintro ⟨ok, t, run⟩
  obtain ⟨n, rest, d', walk, new, reads, next⟩ := follows m.sourceFiles d endless
  rw [recursionDepth_succ, walk, importLoop_read new reads] at run
  obtain ⟨done, m', run, -⟩ := run
  exact ih (next _ fun k hk => mem_keys_addFile.mp hk) ⟨done, m', run⟩

theorem Stuck.next (stuck : Stuck fs options walks m d) (keyed : Keyed m.sourceFiles) :
 ∃ n ∈ d.imports, ∃ m' d', keys m ⊆ keys m' ∧ Keyed m'.sourceFiles ∧ n ∉ keys m' ∧
  Reads fs options (importsToPath n) d' ∧ Stuck fs options walks (addFile d' m') d' := by
 have loops (depth : ℕ) : ¬ (importLoop fs options (recursionDepth fs options walks depth)
  (walks.imports m.sourceFiles d)).Halts m := fun ⟨ok, t, run⟩ =>
  stuck (depth + 1) ⟨ok, t, (recursionDepth_succ depth).mpr run⟩
 obtain ⟨n, mem, found⟩ := importLoop_stuck keyed loops
 exact ⟨n, (walks.imports_perm _ _).mem_iff.mp mem, found⟩

theorem endless_of_stuck (reads : Reads fs options source d) (keyed : Keyed m.sourceFiles)
 (stuck : Stuck fs options walks (addFile d m) d) : Endless fs options source := by
 let State := { s : ModuleParser × FileDetail //
  Keyed s.1.sourceFiles ∧ s.2.getFullName ∈ keys s.1 ∧ Stuck fs options walks s.1 s.2 }
 have steps : ∀ s : State, ∃ (n : Name) (s' : State), n ∈ s.1.2.imports ∧ n ∉ keys s.1.1 ∧
  Reads fs options (importsToPath n) s'.1.2 ∧ keys s.1.1 ⊆ keys s'.1.1 := by
  rintro ⟨⟨m, d⟩, keyed, here, stuck⟩
  obtain ⟨n, mem, m', d', more, keyed', new, reads, stuck'⟩ := stuck.next keyed
  exact ⟨n, ⟨⟨addFile d' m', d'⟩, keyed'.addFile, mem_keys_addFile.mpr (.inl rfl), stuck'⟩, mem,
   fun old => new (more old), reads, fun k hk => mem_keys_addFile.mpr (.inr (more hk))⟩
 choose name next inside new reads' more using steps
 let start : State := ⟨⟨addFile d m, d⟩, keyed.addFile, mem_keys_addFile.mpr (.inl rfl), stuck⟩
 let state (i : ℕ) : State := next^[i] start
 have succ (i : ℕ) : state (i + 1) = next (state i) := Function.iterate_succ_apply' _ _ _
 have grows {i j : ℕ} (le : i ≤ j) : keys (state i).1.1 ⊆ keys (state j).1.1 := by
  induction j, le using Nat.le_induction with
  | base => exact List.Subset.refl _
  | succ j _ ih =>
   rw [succ]
   exact List.Subset.trans ih (more _)
 refine ⟨fun i => (state i).1.2, fun i => name (state i), reads, fun i => ⟨inside _, ?_, ?_⟩⟩
 · dsimp only
   rw [succ]
   exact reads' _
 · intro j le same
   have old := grows le (state j).2.2.1
   rw [← show name (state i) = _ from same] at old
   exact new (state i) old

end Endless

section Declared

/-- Reading the imports has come to `files`, from the source file `d₀`. -/
structure Found (fs : FileSystem) (options : Options) (source : Name) (d₀ : FileDetail)
  (files : FileDetailMap) : Prop where
 reached : ∀ e ∈ files, Reachable fs options source e.2
 read : ∀ e ∈ files, e.2 = d₀ ∨
  Reads fs options (importsToPath e.1) e.2 ∧ ∃ e' ∈ files, e.1 ∈ e'.2.imports

/-- What has been read leads to `files'`, with the imports of all that is new. -/
structure Closes (fs : FileSystem) (options : Options) (source : Name) (d₀ : FileDetail)
  (files files' : FileDetailMap) : Prop where
 found : Found fs options source d₀ files'
 grown : ∀ e ∈ files, e ∈ files'
 closed : ∀ e ∈ files', e ∈ files ∨ ∀ n ∈ e.2.imports, n ∈ files'.map Prod.fst

theorem addFile_new (new : d.getFullName ∉ keys m) :
 (addFile d m).sourceFiles = (d.getFullName, d) :: m.sourceFiles := by
 refine congrArg (_ :: ·) (List.filter_eq_self.mpr fun e he => decide_eq_true fun same => new ?_)
 exact same ▸ List.mem_map_of_mem he

theorem Found.add {n : Name} {e' : Name × FileDetail} (found : Found fs options source d₀ files)
 (he' : e' ∈ files) (uses : n ∈ e'.2.imports) (reads : Reads fs options (importsToPath n) d) :
 Found fs options source d₀ ((n, d) :: files) := by
 constructor
 · intro e he
   rcases List.mem_cons.mp he with rfl | he
   · obtain ⟨d₀, start, path⟩ := found.reached e' he'
     exact ⟨d₀, start, path.tail ⟨n, uses, reads⟩⟩
   · exact found.reached e he
 · intro e he
   rcases List.mem_cons.mp he with rfl | he
   · exact .inr ⟨reads, e', List.mem_cons_of_mem _ he', uses⟩
   · refine (found.read e he).imp_right fun ⟨here, x, hx, uses⟩ => ?_
     exact ⟨here, x, List.mem_cons_of_mem _ hx, uses⟩

theorem importLoop_closes (declared : Declared fs options source)
 {recursion : FileDetail → ModuleM Bool}
 (closes : ∀ d m ok t, (recursion d).Runs m ok t → (∃ e ∈ m.sourceFiles, e.2 = d) →
  Found fs options source d₀ m.sourceFiles → ok = true ∧
   Closes fs options source d₀ m.sourceFiles t.sourceFiles ∧ ∀ n ∈ d.imports, n ∈ keys t)
 {e : Name × FileDetail} (he : e ∈ m.sourceFiles) {names : List Name}
 (inside : ∀ n ∈ names, n ∈ e.2.imports) (found : Found fs options source d₀ m.sourceFiles)
 (run : (importLoop fs options recursion names).Runs m ok t) : ok = true ∧
  Closes fs options source d₀ m.sourceFiles t.sourceFiles ∧ ∀ n ∈ names, n ∈ keys t := by
 induction names generalizing m with
 | nil =>
  obtain ⟨rfl, rfl⟩ := (runs_pure _ _ _ _).mp run
  exact ⟨rfl, ⟨found, fun _ h => h, fun _ => .inl⟩, fun n hn => absurd hn List.not_mem_nil⟩
 | cons n rest ih =>
  have rest_inside : ∀ n ∈ rest, n ∈ e.2.imports := fun k hk => inside k (List.mem_cons_of_mem _ hk)
  have uses := inside n List.mem_cons_self
  by_cases old : n ∈ keys m
  · obtain ⟨rfl, all, held⟩ := ih he rest_inside found ((importLoop_known old).mp run)
    refine ⟨rfl, all, fun k hk => ?_⟩
    rcases List.mem_cons.mp hk with rfl | hk
    · obtain ⟨x, hx, rfl⟩ := List.mem_map.mp old
      exact List.mem_map_of_mem (all.grown x hx)
    · exact held k hk
  obtain ⟨d, reads, rfl⟩ := declared.2 e.2 (found.reached e he) n uses
  obtain ⟨done, m', first, run⟩ := (importLoop_read old reads).mp run
  have added := addFile_new old
  have found' : Found fs options source d₀ (addFile d m).sourceFiles :=
   added ▸ found.add he uses reads
  have new : (d.getFullName, d) ∈ (addFile d m).sourceFiles := added ▸ List.mem_cons_self
  obtain ⟨rfl, below, held⟩ := closes d _ _ _ first ⟨_, new, rfl⟩ found'
  have grown : ∀ x ∈ m.sourceFiles, x ∈ m'.sourceFiles := fun x hx =>
   below.grown x (added ▸ List.mem_cons_of_mem _ hx)
  obtain ⟨rfl, all, held'⟩ := ih (grown e he) rest_inside below.found run
  have names : ∀ k ∈ keys m', k ∈ keys t := by
   intro k hk
   obtain ⟨x, hx, rfl⟩ := List.mem_map.mp hk
   exact List.mem_map_of_mem (all.grown x hx)
  refine ⟨rfl, ⟨all.found, fun x hx => all.grown x (grown x hx), fun x hx => ?_⟩, fun k hk => ?_⟩
  · rcases all.closed x hx with before | closed
    · rcases below.closed x before with before | closed
      · rcases List.mem_cons.mp (added ▸ before) with rfl | before
        · exact .inr fun k hk => names k (held k hk)
        · exact .inl before
      · exact .inr fun k hk => names k (closed k hk)
    · exact .inr closed
  · rcases List.mem_cons.mp hk with rfl | hk
    · exact names _ (List.mem_map_of_mem (below.grown _ new))
    · exact held' k hk

theorem recursionDepth_closes (declared : Declared fs options source) (depth : ℕ) (d : FileDetail)
 (m : ModuleParser) (ok : Bool) (t : ModuleParser)
 (run : (recursionDepth fs options walks depth d).Runs m ok t)
 (here : ∃ e ∈ m.sourceFiles, e.2 = d) (found : Found fs options source d₀ m.sourceFiles) :
 ok = true ∧ Closes fs options source d₀ m.sourceFiles t.sourceFiles ∧
  ∀ n ∈ d.imports, n ∈ keys t := by
 induction depth generalizing d m ok t with
 | zero =>
  obtain ⟨_, run⟩ := run
  cases run
 | succ depth ih =>
  obtain ⟨e, he, rfl⟩ := here
  have perm := walks.imports_perm m.sourceFiles e.2
  obtain ⟨rfl, all, held⟩ := importLoop_closes declared ih he (fun n hn => perm.mem_iff.mp hn)
   found ((recursionDepth_succ depth).mp run)
  exact ⟨rfl, all, fun n hn => held n (perm.mem_iff.mpr hn)⟩

/-- All that the source file `d₀` leads to has been read. -/
structure Explored (fs : FileSystem) (options : Options) (source : Name) (d₀ : FileDetail)
  (files : FileDetailMap) : Prop where
 keyed : Keyed files
 found : Found fs options source d₀ files
 start : Reads fs options source d₀
 mem : (d₀.getFullName, d₀) ∈ files
 closed : ∀ e ∈ files, ∀ n ∈ e.2.imports, n ∈ files.map Prod.fst

theorem Explored.covered (h : Explored fs options source d₀ files)
 (reachable : Reachable fs options source d) :
 d ∈ files.map Prod.snd ∨ ∃ e ∈ files, d₀.getFullName ∈ e.2.imports := by
 obtain ⟨d₁, start, path⟩ := reachable
 obtain rfl := h.start.unique start
 induction path with
 | refl => exact .inl (List.mem_map_of_mem h.mem)
 | @tail b c _ edge ih =>
  rcases ih with inside | uses
  · obtain ⟨e, he, rfl⟩ := List.mem_map.mp inside
    obtain ⟨n, hn, reads⟩ := edge
    obtain ⟨x, hx, rfl⟩ := List.mem_map.mp (h.closed e he n hn)
    rcases h.found.read x hx with first | ⟨reads', -⟩
    · rw [h.keyed.key x hx, first] at hn
      exact .inr ⟨e, he, hn⟩
    · rw [reads.unique reads']
      exact .inl (List.mem_map_of_mem hx)
  · exact .inr uses

variable {done : List FileDetail}

/-- Where all files are compiled, the source file comes last and no file imports it. -/
theorem Explored.unused (h : Explored fs options source d₀ files) (sorted : Sorted files done [] m)
 (all : ∀ d ∈ files.map Prod.snd, d ∈ done) :
 ∀ e ∈ files, d₀.getFullName ∉ e.2.imports := by
 have nodup := sorted.nodup
 rw [List.append_nil] at nodup
 have values {d : FileDetail} (hd : d ∈ done) : d ∈ files.map Prod.snd :=
  ((sorted.ready d).mp (by rwa [List.append_nil])).1
 have last {init : List FileDetail} {z : FileDetail} (same : done = init ++ [z]) :
  ∀ e ∈ files, z.getFullName ∉ e.2.imports := by
  intro e he uses
  obtain ⟨a, b, split⟩ := List.append_of_mem (all e.2 (List.mem_map_of_mem he))
  obtain ⟨y, hy, name⟩ := List.mem_map.mp (sorted.ordered a e.2 b split _ uses)
  have hz : z ∈ done := same ▸ List.mem_append_right _ List.mem_cons_self
  obtain rfl := h.keyed.unique (values (split ▸ List.mem_append_left _ hy)) (values hz) name
  have back : y ∈ e.2 :: b := by
   have one : (a ++ e.2 :: b).getLast? = some y := by
    rw [← split, same, List.getLast?_append_of_ne_nil _ (List.cons_ne_nil _ _)]
    rfl
   rw [List.getLast?_append_of_ne_nil _ (List.cons_ne_nil _ _)] at one
   exact List.mem_of_getLast? one
  rw [split] at nodup
  exact (List.nodup_append.mp nodup).2.2 y hy y back rfl
 have some := all d₀ (List.mem_map_of_mem h.mem)
 obtain ⟨init, z, same⟩ := List.eq_nil_or_concat done |>.resolve_left (List.ne_nil_of_mem some)
 rw [List.concat_eq_append] at same
 obtain ⟨e, he, rfl⟩ := List.mem_map.mp
  (values (same ▸ List.mem_append_right init List.mem_cons_self : z ∈ done))
 rcases h.found.read e he with first | ⟨-, e', he', uses⟩
 · rw [← first]
   exact last same
 · rw [h.keyed.key e he] at uses
   exact absurd uses (last same e' he')

theorem Reachable.parsed (h : Reachable fs options source d) :
 Parsed fs options d.idlFilePath d := by
 obtain ⟨d₀, start, path⟩ := h
 rcases ReflTransGen.cases_tail path with rfl | ⟨b, -, n, -, reads⟩
 · exact start.parsed
 · exact reads.parsed

theorem Explored.compiled (h : Explored fs options source d₀ files)
 (sorted : Sorted files done [] m) (all : ∀ d ∈ files.map Prod.snd, d ∈ done) :
 CompileOrder fs options source m.compileFiles := by
 have nodup := sorted.nodup
 rw [List.append_nil] at nodup
 have unused := h.unused sorted all
 have values {d : FileDetail} (hd : d ∈ done) : d ∈ files.map Prod.snd :=
  ((sorted.ready d).mp (by rwa [List.append_nil])).1
 have reached {d : FileDetail} (hd : d ∈ done) : Reachable fs options source d := by
  obtain ⟨e, he, rfl⟩ := List.mem_map.mp (values hd)
  exact h.found.reached e he
 have listed {d : FileDetail} (hd : Reachable fs options source d) : d ∈ done := by
  rcases h.covered hd with inside | ⟨e, he, uses⟩
  · exact all d inside
  · exact absurd uses (unused e he)
 have inj {d d' : FileDetail} (hd : d ∈ done) (hd' : d' ∈ done)
  (same : d.idlFilePath = d'.idlFilePath) : d = d' :=
  (reached hd).parsed.unique (same ▸ (reached hd').parsed)
 rw [sorted.compiled]
 constructor
 · exact List.Nodup.map_on (fun d hd d' hd' same => inj hd hd' same) nodup
 · intro path
   rw [List.mem_map]
   exact exists_congr fun d => and_congr_left fun _ => ⟨reached, listed⟩
 · rintro d d' reachable ⟨n, hn, reads⟩ a b split
   obtain ⟨before, after, whole, rfl, tail⟩ := List.map_eq_append_iff.mp split
   obtain ⟨x, after, rfl, same, rfl⟩ := List.map_eq_cons_iff.mp tail
   have hx : x ∈ done := whole ▸ List.mem_append_right _ List.mem_cons_self
   obtain rfl := inj hx (listed reachable) same
   obtain ⟨y, hy, rfl⟩ := List.mem_map.mp (sorted.ordered before x after whole n hn)
   obtain ⟨e, he, rfl⟩ := List.mem_map.mp (values (whole ▸ List.mem_append_left _ hy))
   rcases h.found.read e he with first | ⟨reads', -⟩
   · obtain ⟨e', he', rfl⟩ := List.mem_map.mp (values hx)
     rw [first] at hn
     exact absurd hn (unused e' he')
   · rw [h.keyed.key e he] at reads'
     rw [reads.unique reads']
     exact List.mem_map_of_mem hy

theorem CompileOrder.acyclic {compileFiles : List Name}
 (order : CompileOrder fs options source compileFiles) : Acyclic fs options source := by
 intro d reachable cycle
 obtain ⟨a, b, split⟩ := List.append_of_mem ((order.mem _).mpr ⟨d, reachable, rfl⟩)
 have before {d' : FileDetail} (path : TransGen (Imports fs options) d d') :
  d'.idlFilePath ∈ a ∧ Reachable fs options source d' := by
  obtain ⟨d₀, start, lead⟩ := reachable
  refine ⟨?_, d₀, start, lead.trans path.to_reflTransGen⟩
  induction path with
  | single edge => exact order.order _ _ ⟨d₀, start, lead⟩ edge a b split
  | @tail y z path edge ih =>
   obtain ⟨a₁, a₂, rfl⟩ := List.append_of_mem ih
   rw [List.append_assoc, List.cons_append] at split
   exact List.mem_append_left _
    (order.order y z ⟨d₀, start, lead.trans path.to_reflTransGen⟩ edge _ _ split)
 have nodup := order.nodup
 rw [split] at nodup
 exact (List.nodup_append.mp nodup).2.2 _ (before cycle).1 _ List.mem_cons_self rfl

theorem Explored.sorted_all (h : Explored fs options source d₀ files)
 (sorted : Sorted files done [] m)
 (acyclic : Acyclic fs options source) (apart : SourceApart fs options source) :
 ∀ d ∈ files.map Prod.snd, d ∈ done := by
 have edge {d d' : FileDetail} (uses : Uses files d d') : Imports fs options d d' := by
  obtain ⟨hd, hd', name⟩ := uses
  obtain ⟨e, he, rfl⟩ := List.mem_map.mp hd
  obtain ⟨e', he', rfl⟩ := List.mem_map.mp hd'
  rcases h.found.read e' he' with first | ⟨reads, -⟩
  · exact absurd (first ▸ name) (apart d₀ e.2 h.start (h.found.reached e he))
  · exact ⟨_, name, h.keyed.key e' he' ▸ reads⟩
 refine fun d hd => sorted.mem_of_acyclic h.keyed h.closed (fun d cycle => ?_) hd
 obtain ⟨_, ⟨inside, -⟩, -⟩ := TransGen.head'_iff.mp cycle
 obtain ⟨e, he, rfl⟩ := List.mem_map.mp inside
 exact acyclic e.2 (h.found.reached e he) (TransGen.mono (fun _ _ => edge) _ _ cycle)

end Declared

theorem parserAllImports_of_reads (reads : Reads fs options source d₀) :
 (parserAllImports fs options walks source).Runs {} ok t ↔
  ∃ depth, (recursionDepth fs options walks depth d₀).Runs (addFile d₀ {}) ok t := by
 obtain ⟨r, run, found⟩ := parse_runs fs options source {}
 cases (found d₀).mpr reads
 have add : (modify (addFile d₀)).Runs {} () (addFile d₀ {}) := ⟨0, rfl⟩
 rw [parserAllImports, runs_bind_of_runs run, Option.elim_some, runs_bind_of_runs add]
 exact runs_limit _ _ _ _ _

theorem keyed_nil : Keyed ({} : ModuleParser).sourceFiles :=
 ⟨List.nodup_nil, fun _ he => absurd he List.not_mem_nil⟩

theorem parserAllImports_halts (ends : ¬ Endless fs options source) :
 ∃ ok t, (parserAllImports fs options walks source).Runs {} ok t ∧ Keyed t.sourceFiles := by
 by_cases reads : ∃ d₀, Reads fs options source d₀
 · obtain ⟨d₀, reads⟩ := reads
   by_cases stuck : Stuck fs options walks (addFile d₀ {}) d₀
   · exact absurd (endless_of_stuck reads keyed_nil stuck) ends
   · obtain ⟨depth, ok, t, run⟩ := not_forall_not.mp stuck
     exact ⟨ok, t, (parserAllImports_of_reads reads).mpr ⟨depth, run⟩,
      (recursionDepth_keeps depth _ _ _ _ run keyed_nil.addFile).1⟩
 · obtain ⟨r, run, found⟩ := parse_runs fs options source {}
   cases r with
   | none =>
    refine ⟨false, {}, ?_, keyed_nil⟩
    rw [parserAllImports, runs_bind_of_runs run]
    exact (runs_pure _ _ _ _).mpr ⟨rfl, rfl⟩
   | some d => exact absurd ⟨d, (found d).mp rfl⟩ reads

theorem parserAllImports_explores (declared : Declared fs options source)
 (run : (parserAllImports fs options walks source).Runs {} ok t) :
 ok = true ∧ ∃ d₀, Explored fs options source d₀ t.sourceFiles := by
 obtain ⟨d₀, reads⟩ := declared.1
 obtain ⟨depth, run⟩ := (parserAllImports_of_reads reads).mp run
 have one : (addFile d₀ {}).sourceFiles = [(d₀.getFullName, d₀)] := rfl
 have found : Found fs options source d₀ (addFile d₀ {}).sourceFiles := by
  rw [one]
  constructor
  · rintro e he
    cases List.mem_singleton.mp he
    exact ⟨d₀, reads, .refl⟩
  · rintro e he
    cases List.mem_singleton.mp he
    exact .inl rfl
 obtain ⟨rfl, all, held⟩ := recursionDepth_closes declared depth d₀ _ _ _ run
  ⟨_, List.mem_cons_self, rfl⟩ found
 refine ⟨rfl, d₀, (recursionDepth_keeps depth _ _ _ _ run keyed_nil.addFile).1, all.found, reads,
  all.grown _ List.mem_cons_self, fun e he n hn => ?_⟩
 rcases all.closed e he with first | closed
 · rw [one, List.mem_singleton] at first
   cases first
   exact held n hn
 · exact closed n hn

theorem parserDependencies_of_false
 (run : (parserAllImports fs options walks source).Runs {} false t) :
 (parserDependencies fs options walks source).Runs {} false t := by
 rw [parserDependencies, runs_bind_of_runs run]
 exact (runs_pure _ _ _ _).mpr ⟨rfl, rfl⟩

theorem parserDependencies_of_true
 (run : (parserAllImports fs options walks source).Runs {} true t) :
 (parserDependencies fs options walks source).Runs {} ok m ↔
  (checkCircularReference walks).Runs t ok m :=
 runs_bind_of_runs run

theorem Explored.order_iff (h : Explored fs options source d₀ files)
 (checked : Checked files ok m)
 (apart : Acyclic fs options source → SourceApart fs options source) :
 (ok = true ↔ Acyclic fs options source) ∧
  (ok = true → CompileOrder fs options source m.compileFiles) := by
 obtain ⟨done, sorted, full⟩ := checked
 have right (hok : ok = true) : CompileOrder fs options source m.compileFiles :=
  h.compiled sorted fun d => sorted.mem_of_length (full.mp hok)
 refine ⟨⟨fun hok => (right hok).acyclic, fun acyclic => full.mpr ?_⟩, right⟩
 have all := h.sorted_all sorted acyclic (apart acyclic)
 have values := (h.keyed.values.subperm all).length_le
 rw [List.length_map] at values
 exact Nat.le_antisymm sorted.length_le values

/-- The imports are resolved as they should be, in whatever order they are walked over, exactly
if no chain of imports is endless and no file takes the source file for one of its imports. -/
theorem resolves_iff : (∀ walks, Resolves fs options source walks) ↔
 ¬ Endless fs options source ∧
  (Declared fs options source → Acyclic fs options source → SourceApart fs options source) := by
 constructor
 · intro all
   refine ⟨?_, fun declared acyclic d₀ d reads reachable uses => ?_⟩
   · rintro ⟨file, name, reads, step⟩
     obtain ⟨walks, follows⟩ := exists_follows fs options
     obtain ⟨ok, m, run, -⟩ := all walks
     obtain ⟨done, t, first, -⟩ := (runs_bind _ _ _ _ _).mp run
     obtain ⟨depth, first⟩ := (parserAllImports_of_reads reads).mp first
     refine stuck_of_follows follows ⟨file, name, rfl, fun i => ?_⟩ depth ⟨done, t, first⟩
     obtain ⟨inside, reads', apart⟩ := step i
     refine ⟨inside, reads', fun known => ?_, apart⟩
     exact apart 0 (Nat.zero_le i) (List.mem_singleton.mp known)
   · let walks : Walks := ⟨fun _ d => d.imports, id, fun _ _ => .refl _, fun _ => .refl _⟩
     obtain ⟨ok, m, run, right⟩ := all walks
     cases (right declared).1.mpr acyclic
     obtain ⟨done, t, first, -⟩ := (runs_bind _ _ _ _ _).mp run
     obtain ⟨rfl, d₁, explored⟩ := parserAllImports_explores declared first
     obtain rfl := explored.start.unique reads
     obtain ⟨done, sorted, full⟩ := (checkCircularReference_spec walks explored.keyed).of_runs rfl
      ((parserDependencies_of_true first).mp run)
     have unused := explored.unused sorted fun d => sorted.mem_of_length (full.mp rfl)
     rcases explored.covered reachable with inside | ⟨e, he, uses⟩
     · obtain ⟨e, he, rfl⟩ := List.mem_map.mp inside
       exact unused e he uses
     · exact unused e he uses
 · rintro ⟨ends, apart⟩ walks
   obtain ⟨ok, t, run, keyed⟩ : ∃ ok t, (parserAllImports fs options walks source).Runs {} ok t ∧
    Keyed t.sourceFiles := parserAllImports_halts ends
   cases ok with
   | false =>
    refine ⟨false, t, parserDependencies_of_false run, fun declared => ?_⟩
    cases (parserAllImports_explores declared run).1
   | true =>
    obtain ⟨ok, m, check, checked⟩ := checkCircularReference_spec walks keyed t rfl
    refine ⟨ok, m, (parserDependencies_of_true run).mpr check, fun declared => ?_⟩
    obtain ⟨-, d₀, explored⟩ := parserAllImports_explores declared run
    exact explored.order_iff checked (apart declared)

/-- A file that declares no package and imports itself. -/
def selfImport : FileSystem where
 realPath path := if path = "A.idl".toList then some "/w/A.idl".toList else none
 content _ := "import A;".toList

def selfDetail : FileDetail := { idlFilePath := "/w/A.idl".toList, imports := ["A".toList] }

theorem reads_selfImport : Reads selfImport ⟨"c".toList, false⟩ "A.idl".toList selfDetail := by
 refine ⟨"/w/A.idl".toList, by decide +kernel, ?_⟩
 have run : (Parser.parseIdlDetail.run 20 (Parser.opened ⟨"c".toList, false⟩ [] {} []
  "/w/A.idl".toList "import A;".toList)).map Prod.fst = some (true, selfDetail) := by
  decide +kernel
 obtain ⟨⟨r, p⟩, run, rfl⟩ := Option.map_eq_some_iff.mp run
 exact ⟨p, 20, run⟩

theorem stuck_self {n : Name} (only : d.imports = [n]) (reads : Reads fs options (importsToPath n) d)
 (apart : n ≠ d.getFullName) (new : n ∉ keys m) : Stuck fs options walks m d := by
 intro depth
 induction depth generalizing m with
 | zero =>
  rintro ⟨_, _, _, run⟩
  cases run
 | succ depth ih =>
  rintro ⟨ok, t, run⟩
  have walk := List.perm_singleton.mp (only ▸ walks.imports_perm m.sourceFiles d)
  rw [recursionDepth_succ, walk, importLoop_read new reads] at run
  obtain ⟨done, m', run, -⟩ := run
  exact ih (fun old => (mem_keys_addFile.mp old).elim apart new) ⟨done, m', run⟩

theorem self_import_endless : ∃ fs options source, (∀ d, Reachable fs options source d →
 ∀ n ∈ d.imports, ∃ d', Reads fs options (importsToPath n) d') ∧
  ∀ walks, ¬ (parserDependencies fs options walks source).Halts {} := by
 have reads := reads_selfImport
 have again : Reads selfImport ⟨"c".toList, false⟩ (importsToPath "A".toList) selfDetail := by
  have path : importsToPath "A".toList = "A.idl".toList := by decide +kernel
  rwa [path]
 refine ⟨selfImport, ⟨"c".toList, false⟩, "A.idl".toList, ?_, ?_⟩
 · rintro d ⟨d₀, start, path⟩
   obtain rfl := reads.unique start
   have one : d = selfDetail := by
    induction path with
    | refl => rfl
    | tail _ edge ih =>
     subst ih
     obtain ⟨n, hn, reads'⟩ := edge
     cases List.mem_singleton.mp hn
     exact reads'.unique again
   subst one
   intro n hn
   cases List.mem_singleton.mp hn
   exact ⟨_, again⟩
 · rintro walks ⟨ok, m, run⟩
   obtain ⟨done, t, first, -⟩ := (runs_bind _ _ _ _ _).mp run
   obtain ⟨depth, first⟩ := (parserAllImports_of_reads reads).mp first
   refine stuck_self rfl again (by decide +kernel) ?_ depth ⟨done, t, first⟩
   decide +kernel

end DriversFramework.HdiParser.ModuleParser
