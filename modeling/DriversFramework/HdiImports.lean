import DriversFramework.HdiImportOrder
import DriversFramework.HdiParserTermination

namespace DriversFramework.HdiParser

open LoopPrograms LoopPrograms.Prog FileDetail

namespace Parser

theorem setIdlPackage_path (packageName : Name) (d : FileDetail) :
 Yields (setIdlPackage packageName d) fun r => r.2.idlFilePath = d.idlFilePath := by
 unfold setIdlPackage
 repeat' first
  | exact yields_pure rfl
  | apply yields_ite
  | refine yields_bind (Q := fun _ => True) (fun _ _ _ _ => trivial) fun _ _ => ?_

theorem parseIdlPackage_path (d : FileDetail) :
 Yields (parseIdlPackage d) fun r => r.2.idlFilePath = d.idlFilePath := by
 unfold parseIdlPackage
 repeat' first
  | exact yields_pure rfl
  | exact setIdlPackage_path _ d
  | apply yields_ite
  | refine yields_bind (Q := fun _ => True) (fun _ _ _ _ => trivial) fun _ _ => ?_

theorem addIdlImport_path (importPkgName : Name) (d : FileDetail) :
 Yields (addIdlImport importPkgName d) fun r => r.2.idlFilePath = d.idlFilePath := by
 have kept : (d.addImport importPkgName).2.idlFilePath = d.idlFilePath := by
  unfold FileDetail.addImport
  split <;> rfl
 unfold addIdlImport
 repeat' first
  | exact yields_pure rfl
  | exact yields_pure kept
  | apply yields_ite
  | refine yields_bind (Q := fun _ => True) (fun _ _ _ _ => trivial) fun _ _ => ?_

theorem parseIdlImport_path (d : FileDetail) :
 Yields (parseIdlImport d) fun r => r.2.idlFilePath = d.idlFilePath := by
 unfold parseIdlImport
 repeat' first
  | exact yields_pure rfl
  | exact addIdlImport_path _ d
  | apply yields_ite
  | refine yields_bind (Q := fun _ => True) (fun _ _ _ _ => trivial) fun _ _ => ?_

theorem idlDetailRound_path (path : Name) (r : Bool × FileDetail) (hr : r.2.idlFilePath = path) :
 Yields (idlDetailRound r) fun q =>
  q.elim (fun r => r.2.idlFilePath = path) fun r => r.2.idlFilePath = path := by
 refine yields_bind (Q := fun _ => True) (fun _ _ _ _ => trivial) fun token _ => ?_
 apply yields_ite
 · exact yields_pure hr
 apply yields_ite
 · exact yields_bind (parseIdlPackage_path r.2) fun _ hq => yields_pure (hq.trans hr)
 apply yields_ite
 · exact yields_bind (parseIdlImport_path r.2) fun _ hq => yields_pure (hq.trans hr)
 · exact yields_bind (Q := fun _ => True) (fun _ _ _ _ => trivial) fun _ _ => yields_pure hr

theorem parseIdlDetail_path {p q : Parser} {r : Bool × FileDetail}
 (run : parseIdlDetail.Runs p r q) : r.2.idlFilePath = p.lexer.currentFile.path := by
 obtain ⟨path, t, ⟨_, first⟩, rest⟩ := (runs_bind _ _ _ _ _).mp run
 cases first
 have all : Yields (loop idlDetailRound (true, { idlFilePath := p.lexer.currentFile.path }) >>=
  fun r => takeToken >>= fun _ => pure r) fun r => r.2.idlFilePath = p.lexer.currentFile.path :=
  yields_bind (yields_loop (idlDetailRound_path p.lexer.currentFile.path) rfl) fun r hr =>
   yields_bind (Q := fun _ => True) (fun _ _ _ _ => trivial) fun _ _ => yields_pure hr
 exact all _ _ _ rest

end Parser

namespace ModuleParser

variable (fs : FileSystem) (options : Options)

/-- The parser accepts the file at the absolute path `path` and makes `d` of it. -/
def Parsed (path : Name) (d : FileDetail) : Prop :=
 ∃ p, Parser.parseIdlDetail.Runs (Parser.opened options [] {} [] path (fs.content path)) (true, d) p

def Reads (sourceFile : Name) (d : FileDetail) : Prop :=
 ∃ path, fs.openSourceFile sourceFile = some path ∧ Parsed fs options path d

variable {fs options} {d d' : FileDetail} {path sourceFile : Name}

theorem Parsed.idlFilePath (h : Parsed fs options path d) : d.idlFilePath = path := by
 obtain ⟨p, run⟩ := h
 exact Parser.parseIdlDetail_path run

theorem Parsed.unique (h : Parsed fs options path d) (h' : Parsed fs options path d') : d = d' := by
 obtain ⟨p, run⟩ := h
 obtain ⟨p', run'⟩ := h'
 exact (Prod.mk.inj (run.unique run').1).2

theorem Reads.unique (h : Reads fs options sourceFile d) (h' : Reads fs options sourceFile d') :
 d = d' := by
 obtain ⟨path, opens, parsed⟩ := h
 obtain ⟨path', opens', parsed'⟩ := h'
 cases opens.symm.trans opens'
 exact parsed.unique parsed'

theorem Reads.parsed (h : Reads fs options sourceFile d) : Parsed fs options d.idlFilePath d := by
 obtain ⟨path, -, parsed⟩ := h
 rwa [parsed.idlFilePath]

variable (fs options) in
theorem parse_runs (sourceFile : Name) (m : ModuleParser) :
 ∃ r, (parse fs options sourceFile).Runs m r m ∧ ∀ d, r = some d ↔ Reads fs options sourceFile d := by
 unfold parse
 cases opens : fs.openSourceFile sourceFile with
 | none =>
  refine ⟨none, (runs_pure _ _ _ _).mpr ⟨rfl, rfl⟩, fun d => ⟨fun h => ?_, ?_⟩⟩
  · cases h
  · rintro ⟨path, opens', -⟩
    cases opens.symm.trans opens'
 | some path =>
  obtain ⟨n, held⟩ := Parser.opened_held options [] {} [] path (fs.content path)
  obtain ⟨r, p, run⟩ := (Parser.keeps_parseIdlDetail.keeps n).halts held
  refine ⟨if r.1 then some r.2 else none, ?_, fun d => ?_⟩
  · exact (runs_bind _ _ _ _ _).mpr ⟨r, m, (runs_zoom _ _ _ _ _ _).mpr ⟨p, run, rfl⟩,
     (runs_pure _ _ _ _).mpr ⟨rfl, rfl⟩⟩
  · have same : Reads fs options sourceFile d ↔ r = (true, d) := by
     constructor
     · rintro ⟨path', opens', p', run'⟩
       cases opens.symm.trans opens'
       exact (run.unique run').1
     · rintro rfl
       exact ⟨path, opens, p, run⟩
    rw [same]
    obtain ⟨ok, d'⟩ := r
    cases ok <;> simp

def keys (m : ModuleParser) : List Name := m.sourceFiles.map Prod.fst

variable {walks : Walks} {m t : ModuleParser} {n : Name} {ok : Bool}
 {recursion : FileDetail → ModuleM Bool}

theorem mem_keys_addFile : n ∈ keys (addFile d m) ↔ n = d.getFullName ∨ n ∈ keys m := by
 simp only [keys, addFile, List.map_cons, List.mem_cons, List.mem_map, List.mem_filter,
  decide_eq_true_eq]
 constructor
 · rintro (rfl | ⟨e, ⟨mem, -⟩, rfl⟩)
   · exact .inl rfl
   · exact .inr ⟨e, mem, rfl⟩
 · rintro (rfl | ⟨e, mem, rfl⟩)
   · exact .inl rfl
   · by_cases same : e.1 = d.getFullName
     · exact .inl same
     · exact .inr ⟨e, ⟨mem, same⟩, rfl⟩

theorem Keyed.addFile (keyed : Keyed m.sourceFiles) : Keyed (addFile d m).sourceFiles := by
 constructor
 · refine List.nodup_cons.mpr ⟨?_, keyed.nodup.sublist (List.filter_sublist.map _)⟩
   simp
 · intro e he
   rcases List.mem_cons.mp he with rfl | he
   · rfl
   · exact keyed.key e (List.mem_filter.mp he).1

theorem runs_known (m : ModuleParser) (n : Name) :
 (read fun m : ModuleParser => (m.sourceFiles.lookup n).isSome).Runs m (decide (n ∈ keys m)) m := by
 refine ⟨0, ?_⟩
 have same : (m.sourceFiles.lookup n).isSome = decide (n ∈ keys m) := by
  rw [Bool.eq_iff_iff, decide_eq_true_iff, List.lookup_isSome_iff]
  simp [keys]
 rw [run_read, same]

variable {rest : List Name}

theorem importLoop_known (old : n ∈ keys m) :
 (importLoop fs options recursion (n :: rest)).Runs m ok t ↔
  (importLoop fs options recursion rest).Runs m ok t := by
 rw [importLoop, runs_bind_of_runs (runs_known m n), if_pos (decide_eq_true old)]

theorem importLoop_unread (new : n ∉ keys m) (none : ∀ d, ¬ Reads fs options (importsToPath n) d) :
 (importLoop fs options recursion (n :: rest)).Runs m false m := by
 obtain ⟨r, run, found⟩ := parse_runs fs options (importsToPath n) m
 rw [importLoop, runs_bind_of_runs (runs_known m n), if_neg (by simpa using new),
  runs_bind_of_runs run]
 cases r with
 | none => exact (runs_pure _ _ _ _).mpr ⟨rfl, rfl⟩
 | some d => exact absurd ((found d).mp rfl) (none d)

theorem importLoop_read (new : n ∉ keys m) (reads : Reads fs options (importsToPath n) d) :
 (importLoop fs options recursion (n :: rest)).Runs m ok t ↔
  ∃ done m', (recursion d).Runs (addFile d m) done m' ∧
   if done then (importLoop fs options recursion rest).Runs m' ok t
   else ok = false ∧ t = m' := by
 obtain ⟨r, run, found⟩ := parse_runs fs options (importsToPath n) m
 cases (found d).mpr reads
 have add : (modify (addFile d)).Runs m () (addFile d m) := ⟨0, rfl⟩
 rw [importLoop, runs_bind_of_runs (runs_known m n), if_neg (by simpa using new),
  runs_bind_of_runs run, Option.elim_some, runs_bind_of_runs add, runs_bind]
 refine exists_congr fun done => exists_congr fun m' => and_congr_right fun _ => ?_
 cases done with
 | true => rfl
 | false =>
  rw [if_neg Bool.false_ne_true, runs_pure]
  exact and_congr eq_comm eq_comm

/-- The files stay under their names, and no name is lost. -/
def Keeping (m t : ModuleParser) : Prop := Keyed m.sourceFiles → Keyed t.sourceFiles ∧ keys m ⊆ keys t

theorem importLoop_keeps (kept : ∀ d m ok t, (recursion d).Runs m ok t → Keeping m t)
 {names : List Name} (run : (importLoop fs options recursion names).Runs m ok t) :
 Keeping m t := by
 intro keyed
 induction names generalizing m with
 | nil =>
  obtain ⟨-, rfl⟩ := (runs_pure _ _ _ _).mp run
  exact ⟨keyed, List.Subset.refl _⟩
 | cons n rest ih =>
  by_cases old : n ∈ keys m
  · exact ih ((importLoop_known old).mp run) keyed
  by_cases reads : ∃ d, Reads fs options (importsToPath n) d
  · obtain ⟨d, reads⟩ := reads
    obtain ⟨done, m', first, run⟩ := (importLoop_read old reads).mp run
    obtain ⟨keyed', more⟩ := kept d _ _ _ first keyed.addFile
    have more' : keys m ⊆ keys m' := fun k hk => more (mem_keys_addFile.mpr (.inr hk))
    cases done with
    | true =>
     obtain ⟨keyed'', most⟩ := ih run keyed'
     exact ⟨keyed'', List.Subset.trans more' most⟩
    | false =>
     obtain ⟨-, rfl⟩ := run
     exact ⟨keyed', more'⟩
  · obtain ⟨-, rfl⟩ := (importLoop_unread old (not_exists.mp reads)).unique run
    exact ⟨keyed, List.Subset.refl _⟩

/-- The imports of a file are walked over in the order of `walks`. -/
theorem recursionDepth_succ (depth : ℕ) :
 (recursionDepth fs options walks (depth + 1) d).Runs m ok t ↔
  (importLoop fs options (recursionDepth fs options walks depth)
   (walks.imports m.sourceFiles d)).Runs m ok t :=
 runs_bind_of_runs ⟨0, rfl⟩

theorem recursionDepth_keeps (depth : ℕ) (d : FileDetail) (m : ModuleParser) (ok : Bool)
 (t : ModuleParser) (run : (recursionDepth fs options walks depth d).Runs m ok t) :
 Keeping m t := by
 induction depth generalizing d m ok t with
 | zero =>
  obtain ⟨_, run⟩ := run
  cases run
 | succ depth ih => exact importLoop_keeps ih ((recursionDepth_succ depth).mp run)

theorem recursionDepth_le {depth depth' : ℕ} (le : depth ≤ depth')
 (run : (recursionDepth fs options walks depth d).Runs m ok t) :
 (recursionDepth fs options walks depth' d).Runs m ok t := by
 obtain ⟨n, run⟩ := run
 exact ⟨n, run_of_grows (recursionDepth_grows fs options walks d) le run⟩

theorem importLoop_le {depth depth' : ℕ} (le : depth ≤ depth') {names : List Name}
 (run : (importLoop fs options (recursionDepth fs options walks depth) names).Runs m ok t) :
 (importLoop fs options (recursionDepth fs options walks depth') names).Runs m ok t := by
 obtain ⟨n, run⟩ := run
 have grows := recursionDepth_grows fs options walks
 refine ⟨n, run_of_grows (c := fun depth =>
  importLoop fs options (recursionDepth fs options walks depth) names) (fun depth => ?_) le run⟩
 have step := fun d => grows d depth
 exact importLoop_grows fs options _ _ names

/-- No depth is enough for the imports of `d`. -/
def Stuck (fs : FileSystem) (options : Options) (walks : Walks) (m : ModuleParser)
  (d : FileDetail) : Prop :=
 ∀ depth, ¬ (recursionDepth fs options walks depth d).Halts m

/-- Where no depth is enough for a list of imports, one of them is read and no depth is enough
for its file. -/
theorem importLoop_stuck (keyed : Keyed m.sourceFiles) {names : List Name} (stuck : ∀ depth,
 ¬ (importLoop fs options (recursionDepth fs options walks depth) names).Halts m) :
 ∃ n ∈ names, ∃ m' d, keys m ⊆ keys m' ∧ Keyed m'.sourceFiles ∧ n ∉ keys m' ∧
  Reads fs options (importsToPath n) d ∧ Stuck fs options walks (addFile d m') d := by
 induction names generalizing m with
 | nil => exact absurd ⟨true, m, (runs_pure _ _ _ _).mpr ⟨rfl, rfl⟩⟩ (stuck 0)
 | cons n rest ih =>
  by_cases old : n ∈ keys m
  · obtain ⟨n', mem, found⟩ := ih keyed fun depth ⟨ok, t, run⟩ =>
     stuck depth ⟨ok, t, (importLoop_known old).mpr run⟩
    exact ⟨n', List.mem_cons_of_mem _ mem, found⟩
  by_cases reads : ∃ d, Reads fs options (importsToPath n) d
  · obtain ⟨d, reads⟩ := reads
    by_cases here : Stuck fs options walks (addFile d m) d
    · exact ⟨n, List.mem_cons_self, m, d, List.Subset.refl _, keyed, old, reads, here⟩
    obtain ⟨depth, done, m', first⟩ := not_forall_not.mp here
    obtain ⟨keyed', more⟩ := recursionDepth_keeps depth d _ _ _ first keyed.addFile
    have more' : keys m ⊆ keys m' := fun k hk => more (mem_keys_addFile.mpr (.inr hk))
    cases done with
    | false =>
     exact absurd ⟨false, m', (importLoop_read old reads).mpr ⟨false, m', first, rfl, rfl⟩⟩
      (stuck depth)
    | true =>
     obtain ⟨n', mem, m'', d', most, found⟩ := ih keyed' fun depth' ⟨ok, t, run⟩ => by
      refine stuck (max depth depth') ⟨ok, t, (importLoop_read old reads).mpr ⟨true, m', ?_, ?_⟩⟩
      · exact recursionDepth_le (Nat.le_max_left _ _) first
      · exact importLoop_le (Nat.le_max_right _ _) run
     exact ⟨n', List.mem_cons_of_mem _ mem, m'', d', List.Subset.trans more' most, found⟩
  · exact absurd ⟨false, m, importLoop_unread old (not_exists.mp reads)⟩ (stuck 0)

end ModuleParser
end DriversFramework.HdiParser
