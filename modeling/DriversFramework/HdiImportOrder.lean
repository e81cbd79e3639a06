import DriversFramework.HdiModuleParser
import Mathlib.Data.Fintype.Basic
import Mathlib.Order.WellFounded
import Mathlib.Data.Fintype.EquivFin

namespace DriversFramework.HdiParser.ModuleParser

open LoopPrograms LoopPrograms.Prog FileDetail

/-- A file without the imports of files that have been compiled. -/
def left (done : List FileDetail) (d : FileDetail) : FileDetail :=
 { d with imports := d.imports.filter fun n => !(done.map getFullName).contains n }

/-- Each file is kept under its full name. -/
structure Keyed (files : FileDetailMap) : Prop where
 nodup : (files.map Prod.fst).Nodup
 key : ∀ e ∈ files, e.1 = e.2.getFullName

/-- The files `done` have been compiled and those of `queue` are ready; `files` are the files
before the first round. -/
structure Sorted (files : FileDetailMap) (done queue : List FileDetail) (m : ModuleParser) :
  Prop where
 rest : ∃ files' : FileDetailMap, files'.Perm files ∧
  m.sourceFiles = files'.map fun e => (e.1, left done e.2)
 compiled : m.compileFiles = done.map idlFilePath
 nodup : (done ++ queue).Nodup
 ready : ∀ d, d ∈ done ++ queue ↔
  d ∈ files.map Prod.snd ∧ ∀ n ∈ d.imports, n ∈ done.map getFullName
 ordered : ∀ a x b, done = a ++ x :: b → ∀ n ∈ x.imports, n ∈ a.map getFullName

variable {files : FileDetailMap} {done queue : List FileDetail} {m : ModuleParser}
 {d x : FileDetail}

theorem left_eq_nil : (left done d).imports = [] ↔ ∀ n ∈ d.imports, n ∈ done.map getFullName := by
 simp [left, List.filter_eq_nil_iff]

theorem left_delImport : (left done d).delImport x.getFullName = left (done ++ [x]) d := by
 simp only [left, delImport, List.filter_filter, List.map_append]
 congr 1
 apply List.filter_congr
 intro n _
 simp [Bool.and_comm]

theorem left_append (ready : (left done d).imports = []) : left (done ++ [x]) d = left done d := by
 have more : (left (done ++ [x]) d).imports = [] := by
  rw [left_eq_nil] at ready ⊢
  intro n hn
  rw [List.map_append]
  exact List.mem_append_left _ (ready n hn)
 change ({ d with imports := _ } : FileDetail) = { d with imports := _ }
 congr 1
 exact more.trans ready.symm

theorem released_left : released x.getFullName (left done d) = left (done ++ [x]) d := by
 unfold released
 split
 · exact left_delImport
 · rename_i none
   exact (left_append (List.length_eq_zero_iff.mp (by omega))).symm

theorem Keyed.perm {files' : FileDetailMap} (keyed : Keyed files) (perm : files'.Perm files) :
 Keyed files' :=
 ⟨(perm.map Prod.fst).nodup_iff.mpr keyed.nodup, fun e he => keyed.key e (perm.mem_iff.mp he)⟩

theorem Keyed.values (keyed : Keyed files) : (files.map Prod.snd).Nodup := by
 have keys : (files.map Prod.snd).map getFullName = files.map Prod.fst := by
  rw [List.map_map]
  exact List.map_congr_left fun e he => (keyed.key e he).symm
 exact List.Nodup.of_map _ (keys ▸ keyed.nodup)

theorem exists_map_of_perm {α β : Type} {f : α → β} {l : List β} : ∀ {xs : List α},
 l.Perm (xs.map f) → ∃ ys : List α, ys.Perm xs ∧ l = ys.map f := by
 induction l with
 | nil =>
  intro xs perm
  rw [List.map_eq_nil_iff.mp perm.nil_eq.symm]
  exact ⟨[], .refl _, rfl⟩
 | cons b l ih =>
  intro xs perm
  obtain ⟨a, mem, rfl⟩ := List.mem_map.mp (perm.mem_iff.mp List.mem_cons_self)
  obtain ⟨before, after, rfl⟩ := List.append_of_mem mem
  have swapped : (f a :: l).Perm ((a :: (before ++ after)).map f) :=
   perm.trans (List.perm_middle.map f)
  obtain ⟨ys, same, rfl⟩ := ih swapped.cons_inv
  exact ⟨a :: ys, (same.cons a).trans List.perm_middle.symm, rfl⟩

theorem Sorted.next (walks : Walks) (keyed : Keyed files) (h : Sorted files done (x :: queue) m) :
 ∃ new, freed x.getFullName (walks.files m.sourceFiles) = new.map (left (done ++ [x])) ∧
  Sorted files (done ++ [x]) (queue ++ new)
   { sourceFiles := (walks.files m.sourceFiles).map fun e => (e.1, released x.getFullName e.2)
     compileFiles := m.compileFiles ++ [x.idlFilePath] } := by
 obtain ⟨files', perm, rest⟩ := h.rest
 obtain ⟨walked, perm', walk⟩ := exists_map_of_perm
  ((walks.files_perm m.sourceFiles).trans (List.Perm.of_eq rest))
 have all := perm'.trans perm
 have mem (d : FileDetail) : d ∈ walked.map Prod.snd ↔ d ∈ files.map Prod.snd :=
  (all.map Prod.snd).mem_iff
 let frees (e : Name × FileDetail) : Bool := 0 < (left done e.2).imports.length &&
  (left (done ++ [x]) e.2).imports.length = 0
 have new (d : FileDetail) : d ∈ (walked.filter frees).map Prod.snd ↔ d ∈ files.map Prod.snd ∧
  (left done d).imports ≠ [] ∧ (left (done ++ [x]) d).imports = [] := by
  rw [← mem]
  simp only [List.mem_map, List.mem_filter, frees, Bool.and_eq_true, decide_eq_true_eq,
   List.length_pos_iff, List.length_eq_zero_iff]
  constructor
  · rintro ⟨e, ⟨inside, some, none⟩, rfl⟩
    exact ⟨⟨e, inside, rfl⟩, some, none⟩
  · rintro ⟨⟨e, inside, rfl⟩, some, none⟩
    exact ⟨e, ⟨inside, some, none⟩, rfl⟩
 have old (d : FileDetail) : d ∈ done ++ x :: queue ↔
  d ∈ files.map Prod.snd ∧ (left done d).imports = [] := by
  rw [left_eq_nil]
  exact h.ready d
 have shape (l : List FileDetail) : done ++ [x] ++ (queue ++ l) = done ++ x :: queue ++ l := by
  simp
 refine ⟨(walked.filter frees).map Prod.snd, ?_, ⟨walked, all, ?_⟩, ?_, ?_, fun d => ?_, ?_⟩
 · rw [walk, freed, List.filter_map, List.map_map, List.map_map]
   simp only [Function.comp_def, left_delImport, frees]
 · simp only [walk, List.map_map, Function.comp_def, released_left]
 · simp only [h.compiled, List.map_append, List.map_cons, List.map_nil]
 · rw [shape, List.nodup_append]
   have values := (keyed.perm all).values
   refine ⟨h.nodup, values.sublist (List.filter_sublist.map _), ?_⟩
   rintro d hd _ hnew rfl
   exact ((new d).mp hnew).2.1 ((old d).mp hd).2
 · rw [shape, List.mem_append, old, new, ← left_eq_nil]
   constructor
   · rintro (⟨inside, none⟩ | ⟨inside, -, none⟩)
     · refine ⟨inside, left_eq_nil.mpr fun n hn => ?_⟩
       rw [List.map_append]
       exact List.mem_append_left _ (left_eq_nil.mp none n hn)
     · exact ⟨inside, none⟩
   · rintro ⟨inside, none⟩
     by_cases before : (left done d).imports = []
     · exact .inl ⟨inside, before⟩
     · exact .inr ⟨inside, before, none⟩
 · intro a y b same n hn
   rcases List.eq_nil_or_concat b with rfl | ⟨b, z, rfl⟩
   · obtain ⟨rfl, last⟩ := List.append_inj' same rfl
     cases last
     exact ((h.ready x).mp (List.mem_append_right _ List.mem_cons_self)).2 n hn
   · rw [List.concat_eq_append, ← List.cons_append, ← List.append_assoc] at same
     exact h.ordered a y b (List.append_inj' same rfl).1 n hn

theorem Sorted.length_le (h : Sorted files done queue m) : done.length ≤ files.length := by
 have inside : done ⊆ files.map Prod.snd := fun d hd => ((h.ready d).mp (List.mem_append_left _ hd)).1
 have le := ((List.nodup_append.mp h.nodup).1.subperm inside).length_le
 rwa [List.length_map] at le

theorem Sorted.mem_of_length (h : Sorted files done [] m) (full : done.length = files.length)
 (hd : d ∈ files.map Prod.snd) : d ∈ done := by
 have nodup := h.nodup
 rw [List.append_nil] at nodup
 have inside : done ⊆ files.map Prod.snd := fun d hd =>
  ((h.ready d).mp (List.mem_append_left _ hd)).1
 have perm := (nodup.subperm inside).perm_of_length_le (by rw [List.length_map, full])
 exact perm.mem_iff.mpr hd

/-- `d` imports `d'`, both among the files. -/
def Uses (files : FileDetailMap) (d d' : FileDetail) : Prop :=
 d ∈ files.map Prod.snd ∧ d' ∈ files.map Prod.snd ∧ d'.getFullName ∈ d.imports

theorem Sorted.mem_of_acyclic (h : Sorted files done [] m) (keyed : Keyed files)
 (closed : ∀ e ∈ files, ∀ n ∈ e.2.imports, n ∈ files.map Prod.fst)
 (acyclic : ∀ d, ¬ Relation.TransGen (Uses files) d d) (hd : d ∈ files.map Prod.snd) :
 d ∈ done := by
 let Later (a b : { d // d ∈ files.map Prod.snd }) : Prop :=
  Relation.TransGen (Uses files) b.1 a.1
 have irrefl : Std.Irrefl Later := ⟨fun a => acyclic a.1⟩
 have trans : IsTrans _ Later := ⟨fun a b c hab hbc => hbc.trans hab⟩
 have wf : WellFounded Later := Finite.wellFounded_of_trans_of_irrefl Later
 induction hx : (⟨d, hd⟩ : { d // d ∈ files.map Prod.snd }) using wf.induction generalizing d with
 | _ x ih =>
  subst hx
  rw [← List.append_nil done, h.ready]
  refine ⟨hd, fun n hn => ?_⟩
  obtain ⟨e, he, rfl⟩ := List.mem_map.mp hd
  obtain ⟨e', he', rfl⟩ := List.mem_map.mp (closed e he n hn)
  have inside := List.mem_map_of_mem (f := Prod.snd) he'
  rw [keyed.key e' he'] at hn ⊢
  exact List.mem_map_of_mem (ih _ (.single ⟨hd, inside, hn⟩) inside rfl)

/-- After the loop of `CheckCircularReference`. -/
def Checked (files : FileDetailMap) (ok : Bool) (m : ModuleParser) : Prop :=
 ∃ done, Sorted files done [] m ∧ (ok = true ↔ done.length = files.length)

/-- The state of the loop with `n - 1` files left to be compiled. -/
def CheckLoop (files : FileDetailMap) (fileQueue : List FileDetail) (n : ℕ) (m : ModuleParser) :
  Prop :=
 ∃ done queue, fileQueue = queue.map (left done) ∧ Sorted files done queue m ∧
  done.length + n = files.length + 1

theorem left_nil : left [] d = d := by
 simp [left]

theorem Sorted.start (walks : Walks) (keyed : Keyed files) :
 CheckLoop files (((walks.files files).filter fun e => e.2.imports.length = 0).map Prod.snd)
  (files.length + 1) { sourceFiles := files } := by
 have perm := walks.files_perm files
 refine ⟨[], ((walks.files files).filter fun e => e.2.imports.length = 0).map Prod.snd, ?_,
  ⟨⟨files, .refl _, ?_⟩, rfl, ?_, fun d => ?_, ?_⟩, Nat.zero_add _⟩
 · exact (List.map_id'' (fun _ => left_nil) _).symm
 · exact (List.map_id'' (fun e => by rw [left_nil]) _).symm
 · rw [List.nil_append]
   exact (keyed.perm perm).values.sublist (List.filter_sublist.map _)
 · rw [List.nil_append, ← left_eq_nil, left_nil, ← (perm.map Prod.snd).mem_iff]
   simp only [List.mem_map, List.mem_filter, decide_eq_true_eq, List.length_eq_zero_iff]
   constructor
   · rintro ⟨e, ⟨inside, none⟩, rfl⟩
     exact ⟨⟨e, inside, rfl⟩, none⟩
   · rintro ⟨⟨e, inside, rfl⟩, none⟩
     exact ⟨e, ⟨inside, none⟩, rfl⟩
 · intro a x b same
   exact absurd same.symm (by simp)

theorem checkRound_spec (walks : Walks) (keyed : Keyed files) (q : List FileDetail) (n : ℕ) :
 Spec (CheckLoop files q (n + 1)) (checkRound walks q) fun r t =>
  r.elim (fun q => CheckLoop files q n t) fun _ => ∃ done, Sorted files done [] t := by
 apply spec_step
 rintro t ⟨done, queue, rfl, sorted, count⟩
 cases queue with
 | nil => exact ⟨done, sorted⟩
 | cons x queue =>
  obtain ⟨new, frees, next⟩ := sorted.next walks keyed
  refine ⟨done ++ [x], queue ++ new, ?_, next, ?_⟩
  · rw [List.map_append, ← frees]
    refine congrArg (· ++ _) (List.map_congr_left fun d hd => ?_)
    have ready := (sorted.ready d).mp (List.mem_append_right _ (List.mem_cons_of_mem _ hd))
    exact (left_append (left_eq_nil.mpr ready.2)).symm
  · simp only [List.length_append, List.length_singleton]
    omega

/-- `CheckCircularReference` ends, whatever the files import. -/
theorem checkCircularReference_spec (walks : Walks) (keyed : Keyed files) :
 Spec (fun m => m.sourceFiles = files) (checkCircularReference walks) (Checked files) := by
 refine spec_bind (Q := fun q m => m.sourceFiles = files ∧ q = walks.files files)
  (spec_read ?_) fun q => ?_
 · rintro m rfl
   exact ⟨rfl, rfl⟩
 refine spec_bind (Q := fun _ m => CheckLoop files
  ((q.filter fun e => e.2.imports.length = 0).map Prod.snd) (files.length + 1) m)
  (spec_modify ?_) fun _ => ?_
 · rintro m ⟨rfl, rfl⟩
   exact Sorted.start walks keyed
 refine spec_bind (spec_loop _ ?_ (fun q n _ => checkRound_spec walks keyed q n) _) fun _ =>
  spec_read ?_
 · rintro q t ⟨done, queue, -, sorted, count⟩
   have := sorted.length_le
   omega
 · rintro m ⟨done, sorted⟩
   refine ⟨done, sorted, ?_⟩
   obtain ⟨files', perm, rest⟩ := sorted.rest
   have le := sorted.length_le
   rw [sorted.compiled, rest, List.length_map, List.length_map, perm.length_eq]
   simp only [Bool.not_eq_true', decide_eq_false_iff_not]
   omega

/-- Every chain of imports from the file stays among the files and ends; `file` finds an imported
file by its full name. -/
inductive Grounded (files : FileDetailMap) : FileDetail → Prop where
 | intro (d : FileDetail) (file : Name → FileDetail) (inside : d ∈ files.map Prod.snd)
  (name : ∀ n ∈ d.imports, (file n).getFullName = n)
  (all : ∀ n ∈ d.imports, Grounded files (file n)) : Grounded files d

theorem Keyed.unique {d' : FileDetail} (keyed : Keyed files) (hd : d ∈ files.map Prod.snd)
 (hd' : d' ∈ files.map Prod.snd) (same : d.getFullName = d'.getFullName) : d = d' := by
 obtain ⟨e, he, rfl⟩ := List.mem_map.mp hd
 obtain ⟨e', he', rfl⟩ := List.mem_map.mp hd'
 rw [← keyed.key e he, ← keyed.key e' he'] at same
 exact congrArg Prod.snd (List.inj_on_of_nodup_map keyed.nodup he he' same)

theorem Grounded.inside (h : Grounded files d) : d ∈ files.map Prod.snd := by
 cases h
 assumption

theorem Grounded.no_cycle (keyed : Keyed files) (h : Grounded files d) :
 ¬ Relation.TransGen (Uses files) d d := by
 induction h with
 | intro d file inside name all ih =>
  intro cycle
  obtain ⟨d', uses, back⟩ := Relation.TransGen.head'_iff.mp cycle
  have here := keyed.unique uses.2.1 (all _ uses.2.2).inside (name _ uses.2.2).symm
  have round := Relation.TransGen.tail' back uses
  rw [here] at round
  exact ih _ uses.2.2 round

theorem Sorted.grounded (h : Sorted files done [] m) : d ∈ done ↔ Grounded files d := by
 have ready := h.ready
 rw [List.append_nil] at ready
 constructor
 · intro hd
   obtain ⟨a, b, same⟩ := List.append_of_mem hd
   -- the imports come before the file, so that the induction is on its place
   induction place : a.length using Nat.strong_induction_on generalizing a b d with
   | _ k ih =>
    have before : ∀ n ∈ d.imports, ∃ y, y.getFullName = n ∧ Grounded files y := by
     intro n hn
     obtain ⟨y, hy, name⟩ := List.mem_map.mp (h.ordered a d b same n hn)
     obtain ⟨a, c, rfl⟩ := List.append_of_mem hy
     have split : done = a ++ y :: (c ++ d :: b) := by simpa using same
     have less : a.length < k := by simp [← place]
     exact ⟨y, name, ih _ less (by simp [split]) a _ split rfl⟩
    have : Nonempty FileDetail := ⟨d⟩
    choose! file name all using before
    exact ⟨d, file, ((ready d).mp hd).1, name, all⟩
 · intro grounded
   induction grounded with
   | intro d file inside name all ih =>
    refine (ready d).mpr ⟨inside, fun n hn => ?_⟩
    exact List.mem_map.mpr ⟨file n, ih n hn, name n hn⟩

/-- Whatever the files import, those are compiled from which every chain of imports stays among the
files and ends, each after what it imports; the result tells whether these are all. -/
theorem checkCircularReference_grounded (walks : Walks) (keyed : Keyed files) :
 Spec (fun m => m.sourceFiles = files) (checkCircularReference walks) fun ok m =>
  (ok = true ↔ (∀ e ∈ files, ∀ n ∈ e.2.imports, n ∈ files.map Prod.fst) ∧
   ∀ d, ¬ Relation.TransGen (Uses files) d d) ∧
  ∃ done : List FileDetail, m.compileFiles = done.map idlFilePath ∧ done.Nodup ∧
   (∀ d, d ∈ done ↔ Grounded files d) ∧
   ∀ a x b, done = a ++ x :: b → ∀ n ∈ x.imports, n ∈ a.map getFullName := by
 refine (checkCircularReference_spec walks keyed).weaken (fun _ h => h) ?_
 rintro ok m ⟨done, sorted, full⟩
 have nodup := sorted.nodup
 rw [List.append_nil] at nodup
 refine ⟨full.trans ⟨fun all => ?_, fun ⟨closed, acyclic⟩ => ?_⟩,
  done, sorted.compiled, nodup, fun d => sorted.grounded, sorted.ordered⟩
 · have grounded (d) (hd : d ∈ files.map Prod.snd) : Grounded files d :=
    sorted.grounded.mp (sorted.mem_of_length all hd)
   refine ⟨fun e he n hn => ?_, fun d cycle => ?_⟩
   · cases grounded e.2 (List.mem_map_of_mem he) with
     | intro _ file inside name next =>
      obtain ⟨e', he', same⟩ := List.mem_map.mp (next n hn).inside
      refine List.mem_map.mpr ⟨e', he', ?_⟩
      rw [keyed.key e' he', same, name n hn]
   · obtain ⟨_, ⟨inside, -⟩, -⟩ := Relation.TransGen.head'_iff.mp cycle
     exact (grounded d inside).no_cycle keyed cycle
 · have all : files.map Prod.snd ⊆ done := fun d hd =>
    sorted.mem_of_acyclic keyed closed acyclic hd
   have le := (keyed.values.subperm all).length_le
   rw [List.length_map] at le
   exact sorted.length_le.antisymm le

/-- A file whose import is missing. -/
def alone : FileDetail := { idlFilePath := "/A.idl".toList, imports := ["B".toList] }

def inOrder : Walks := ⟨fun _ d => d.imports, id, fun _ _ => .refl _, .refl⟩

theorem checkCircularReference_alone :
 (checkCircularReference inOrder).Halts { sourceFiles := [(alone.getFullName, alone)] } :=
 (checkCircularReference_grounded inOrder ⟨by simp, by simp⟩).halts rfl

end DriversFramework.HdiParser.ModuleParser
