import Mathlib.Data.Set.Finite.Lattice
import DriversFramework.HcAstRedefine
import DriversFramework.HcAstRounds

/-! When `Parser::Parse` comes to an end. Files are read from a work list, which holds no record
of the files that have been read. -/
namespace DriversFramework.HcAst

open RoundRules AstHeap

/-- A finite set of source files. -/
def fileAt (files : List (Str × SourceFile)) (src : Str) : Option SourceFile :=
 (files.find? fun file => file.1 = src).map Prod.snd

section Includes

variable (parseOne : Str → Option SourceFile)

/-- Some files parse, and so does all that they include; `roots` are the trees in the order in
which the files are read. -/
inductive Loads : List Str → List (Option SourceObjects) → Prop
 | nil : Loads [] []
 | cons {src : Str} {file : SourceFile} {srcs : List Str}
   {roots roots' : List (Option SourceObjects)} (hfile : parseOne src = some file)
   (hincludes : Loads file.includes roots) (hrest : Loads srcs roots') :
   Loads (src :: srcs) (file.root :: (roots ++ roots'))

/-- `g` is read because `f` includes it: what `f` includes before it parses. -/
def Follows (f g : Str) : Prop :=
 ∃ file before behind, parseOne f = some file ∧ file.includes = before ++ g :: behind ∧
  ∃ roots, Loads parseOne before roots

/-- No file that is read from `src` on is read again because of itself. -/
def NoneFollowsItself (src : Str) : Prop :=
 ∀ f, Relation.ReflTransGen (Follows parseOne) src f → ¬ Relation.TransGen (Follows parseOne) f f

/-- The tree that the files come to, where they parse and are merged. -/
def MergesTo (sourceName : Str) (source : SourceObjects) : Prop :=
 ∃ roots, Loads parseOne [sourceName] roots ∧
  ∃ fuel, mergeAst fuel (mainLast roots).head?.join (mainLast roots).tail = .ok (some source)

/-- `Ast::Expand` comes to an end on the tree of a source. -/
def ExpandEnds (source : SourceObjects) : Prop :=
 Ends Stop.noReturn fun fuel => (Ast.ofSource true source).expand fuel

/-- `Parser::Parse` comes to an end. -/
def ParseEnds (sourceName : Str) : Prop :=
 Ends Stop.noReturn fun fuel => parse parseOne fuel sourceName

inductive Fails : Str → Prop
 | missing {src : Str} (h : parseOne src = none) : Fails src
 | included {src g : Str} {file : SourceFile} {before behind : List Str}
   {roots : List (Option SourceObjects)} (hfile : parseOne src = some file)
   (hincludes : file.includes = before ++ g :: behind)
   (hbefore : Loads parseOne before roots) (hg : Fails g) : Fails src

def FailsAmong (srcs : List Str) : Prop :=
 ∃ before g behind roots, srcs = before ++ g :: behind ∧ Loads parseOne before roots ∧
  Fails parseOne g

end Includes

section
variable {parseOne : Str → Option SourceFile}

variable {roots : List (Option SourceObjects)} {srcs : List Str}

theorem Loads.append {srcs' : List Str} {roots' : List (Option SourceObjects)}
 (h : Loads parseOne srcs roots) (h' : Loads parseOne srcs' roots') :
 Loads parseOne (srcs ++ srcs') (roots ++ roots') := by
 induction h with
 | nil => exact h'
 | cons hfile hincludes hrest _ ihRest =>
  rw [List.cons_append, List.cons_append, List.append_assoc]
  exact .cons hfile hincludes ihRest

theorem Loads.split {srcs' : List Str} (h : Loads parseOne (srcs ++ srcs') roots) :
 ∃ first rest, Loads parseOne srcs first ∧ Loads parseOne srcs' rest ∧
  roots = first ++ rest := by
 induction srcs generalizing roots with
 | nil => exact ⟨[], roots, .nil, h, rfl⟩
 | cons src srcs ih =>
  rw [List.cons_append] at h
  cases h with
  | @cons _ file _ inner outer hfile hincludes hrest =>
   obtain ⟨first, rest, hfirst, hlast, rfl⟩ := ih hrest
   exact ⟨_, rest, .cons hfile hincludes hfirst, hlast, by
    rw [List.cons_append, List.append_assoc]⟩

theorem Loads.not_fails (h : Loads parseOne srcs roots) : ∀ src ∈ srcs, ¬ Fails parseOne src := by
 induction h with
 | nil => exact fun _ hsrc => by cases hsrc
 | @cons src file srcs roots roots' hfile _ _ ihIncludes ihRest =>
  intro f hf hfails
  rcases List.mem_cons.mp hf with rfl | hf
  · cases hfails with
    | missing hnone =>
     rw [hfile] at hnone
     cases hnone
    | included hfile' hincludes _ hg =>
     rw [hfile] at hfile'
     cases hfile'
     exact ihIncludes _ (hincludes ▸ List.mem_append_right _ List.mem_cons_self) hg
  · exact ihRest f hf hfails

theorem Loads.read (h : Loads parseOne srcs roots) : ∃ n, ∀ fuel queue,
  readSources parseOne (n + fuel) (srcs ++ queue) =
   (readSources parseOne fuel queue).map (roots ++ ·) := by
 induction h with
 | nil =>
  refine ⟨0, fun fuel queue => ?_⟩
  rw [Nat.zero_add]
  cases h : readSources parseOne fuel queue with
  | error e => exact h
  | ok astList => exact h
 | @cons src file srcs roots roots' hfile _ _ ihIncludes ihRest =>
  obtain ⟨n, hn⟩ := ihIncludes
  obtain ⟨m, hm⟩ := ihRest
  refine ⟨n + m + 1, fun fuel queue => ?_⟩
  rw [show n + m + 1 + fuel = (n + (m + fuel)) + 1 by omega, List.cons_append, readSources, hfile]
  dsimp only
  rw [hn, hm]
  cases readSources parseOne fuel queue with
  | error e => rfl
  | ok astList =>
   change Except.ok (file.root :: (roots ++ (roots' ++ astList))) = Except.ok _
   rw [← List.append_assoc]
   rfl

theorem Fails.read {src : Str} (h : Fails parseOne src) : ∃ n, ∀ fuel queue,
 readSources parseOne (n + fuel) (src :: queue) = .error .returnsFalse := by
 induction h with
 | missing hnone =>
  refine ⟨1, fun fuel queue => ?_⟩
  rw [Nat.add_comm, readSources, hnone]
 | @included src g file before behind roots hfile hincludes hbefore _ ih =>
  obtain ⟨n, hn⟩ := hbefore.read
  obtain ⟨m, hm⟩ := ih
  refine ⟨n + m + 1, fun fuel queue => ?_⟩
  rw [show n + m + 1 + fuel = (n + (m + fuel)) + 1 by omega, readSources, hfile]
  dsimp only
  rw [hincludes, List.append_assoc, List.cons_append, hn, hm]
  rfl

theorem read_cases (fuel : ℕ) : ∀ {srcs queue : List Str},
 readSources parseOne fuel (srcs ++ queue) ≠ .error .noReturn →
  (∃ roots, Loads parseOne srcs roots) ∨ FailsAmong parseOne srcs := by
 induction fuel with
 | zero =>
  intro srcs queue hends
  cases srcs with
  | nil => exact .inl ⟨_, .nil⟩
  | cons src srcs => exact absurd rfl hends
 | succ fuel ih =>
  intro srcs queue hends
  cases srcs with
  | nil => exact .inl ⟨_, .nil⟩
  | cons src srcs =>
   rw [List.cons_append, readSources] at hends
   cases hfile : parseOne src with
   | none => exact .inr ⟨[], src, srcs, [], rfl, .nil, .missing hfile⟩
   | some file =>
    rw [hfile] at hends
    dsimp only at hends
    rw [← List.append_assoc] at hends
    have inner : readSources parseOne fuel ((file.includes ++ srcs) ++ queue) ≠
     .error .noReturn := by
     intro hout
     rw [hout] at hends
     exact hends rfl
    rcases ih inner with ⟨roots, hloads⟩ | ⟨before, g, behind, roots, heq, hbefore, hg⟩
    · obtain ⟨first, rest, hfirst, hrest, -⟩ := hloads.split
      exact .inl ⟨_, .cons hfile hfirst hrest⟩
    · rcases List.append_eq_append_iff.mp heq with
       ⟨extra, rfl, hsrcs⟩ | ⟨extra, hincludes, hlast⟩
      · obtain ⟨first, rest, hfirst, hrest, -⟩ := hbefore.split
        refine .inr ⟨src :: extra, g, behind, _, ?_, .cons hfile hfirst hrest, hg⟩
        rw [hsrcs]
        rfl
      · cases extra with
        | nil =>
         rw [List.append_nil] at hincludes
         refine .inr ⟨[src], g, behind, _, ?_, .cons hfile (hincludes ▸ hbefore) .nil, hg⟩
         rw [List.nil_append] at hlast
         rw [hlast]
         rfl
        | cons g' extra =>
         obtain ⟨rfl, -⟩ := List.cons.inj hlast
         exact .inr ⟨[], src, srcs, [], rfl, .nil, .included hfile hincludes hbefore hg⟩

theorem loads_or_fails_iff (src : Str) :
 (Ends Stop.noReturn fun fuel => readSources parseOne fuel [src]) ↔
  (∃ roots, Loads parseOne [src] roots) ∨ Fails parseOne src := by
 constructor
 · rintro ⟨fuel, hends⟩
   rcases @read_cases parseOne fuel [src] [] hends with hloads | ⟨before, g, behind, _, heq, _, hg⟩
   · exact .inl hloads
   · rcases List.cons_eq_append_iff.mp heq with ⟨rfl, hsrc⟩ | ⟨before, -, hnil⟩
     · cases hsrc
       exact .inr hg
     · exact absurd hnil (by simp)
 · rintro (⟨roots, hloads⟩ | hfails)
   · obtain ⟨n, hn⟩ := hloads.read
     refine ⟨n + 0, ?_⟩
     have hread := hn 0 []
     rw [List.append_nil] at hread
     dsimp only
     rw [hread]
     exact fun h => by cases h
   · obtain ⟨n, hn⟩ := hfails.read
     refine ⟨n + 0, ?_⟩
     dsimp only
     rw [hn]
     exact fun h => by cases h

theorem loads_of_read {fuel : ℕ} {src : Str} {astList : List (Option SourceObjects)}
 (h : readSources parseOne fuel [src] = .ok astList) : Loads parseOne [src] astList := by
 have hends : readSources parseOne fuel [src] ≠ .error .noReturn := by
  rw [h]
  exact fun h => by cases h
 have same {r : Except Stop (List (Option SourceObjects))} {n : ℕ}
  (hr : readSources parseOne n [src] = r) (hne : r ≠ .error .noReturn) : .ok astList = r := by
  rw [← h, ← hr]
  exact eq_of_enough (fun n => readSources_more parseOne n [src]) hends (hr ▸ hne)
 rcases (loads_or_fails_iff src).mp ⟨fuel, hends⟩ with ⟨roots, hloads⟩ | hfails
 · obtain ⟨n, hn⟩ := hloads.read
   have hread := hn 0 []
   rw [List.append_nil, readSources] at hread
   have heq := same hread (fun h => by cases h)
   cases heq
   simpa using hloads
 · obtain ⟨n, hn⟩ := hfails.read
   cases same (hn 0 []) fun h => by cases h

theorem Loads.acc (h : Loads parseOne srcs roots) :
 ∀ src ∈ srcs, Acc (fun g f => Follows parseOne f g) src := by
 induction h with
 | nil => exact fun _ hsrc => by cases hsrc
 | @cons src file srcs roots roots' hfile _ _ ihIncludes ihRest =>
  intro f hf
  rcases List.mem_cons.mp hf with rfl | hf
  · refine ⟨_, ?_⟩
    rintro g ⟨file', before, behind, hfile', hincludes, -⟩
    rw [hfile] at hfile'
    cases hfile'
    exact ihIncludes g (hincludes ▸ List.mem_append_right _ List.mem_cons_self)
  · exact ihRest f hf

theorem Fails.acc {src : Str} (h : Fails parseOne src) :
 Acc (fun g f => Follows parseOne f g) src := by
 induction h with
 | missing hnone =>
  refine ⟨_, ?_⟩
  rintro g ⟨file, _, _, hfile, -⟩
  rw [hnone] at hfile
  cases hfile
 | @included src g file before behind roots hfile hincludes hbefore hg ih =>
  refine ⟨_, ?_⟩
  rintro f ⟨file', before', behind', hfile', hincludes', _, hbefore'⟩
  rw [hfile] at hfile'
  cases hfile'
  rcases List.append_eq_append_iff.mp (hincludes.symm.trans hincludes') with
   ⟨extra, rfl, heq⟩ | ⟨extra, rfl, heq⟩
  · cases extra with
    | nil =>
     obtain ⟨rfl, -⟩ := List.cons.inj heq
     exact ih
    | cons g' extra =>
     obtain ⟨rfl, -⟩ := List.cons.inj heq
     exact absurd hg (hbefore'.not_fails _ (List.mem_append_right _ List.mem_cons_self))
  · cases extra with
    | nil =>
     obtain ⟨rfl, -⟩ := List.cons.inj heq
     exact ih
    | cons g' extra =>
     obtain ⟨rfl, -⟩ := List.cons.inj heq
     exact hbefore.acc _ (List.mem_append_right _ List.mem_cons_self)

theorem loads_or_fails_of_acc {src : Str} (h : Acc (fun g f => Follows parseOne f g) src) :
 (∃ roots, Loads parseOne [src] roots) ∨ Fails parseOne src := by
 induction h with
 | intro src _ ih =>
  cases hfile : parseOne src with
  | none => exact .inr (.missing hfile)
  | some file =>
   have prefixes : ∀ behind before, file.includes = before ++ behind →
    (∃ roots, Loads parseOne before roots) →
    (∃ roots, Loads parseOne file.includes roots) ∨ Fails parseOne src := by
    intro behind
    induction behind with
    | nil =>
     intro before heq hbefore
     rw [heq, List.append_nil]
     exact .inl hbefore
    | cons g behind ihBehind =>
     rintro before heq ⟨roots, hbefore⟩
     rcases ih g ⟨file, before, behind, hfile, heq, roots, hbefore⟩ with ⟨more, hg⟩ | hg
     · refine ihBehind (before ++ [g]) ?_ ⟨_, hbefore.append hg⟩
       rw [heq, List.append_assoc]
       rfl
     · exact .inr (.included hfile heq hbefore hg)
   rcases prefixes file.includes [] rfl ⟨[], .nil⟩ with ⟨roots, hroots⟩ | hfails
   · exact .inl ⟨_, .cons hfile hroots .nil⟩
   · exact .inr hfails

end

theorem not_self_of_acc {α : Type} {r : α → α → Prop} {a : α} (h : Acc r a) : ¬ r a a := by
 induction h with
 | intro a _ ih => exact fun ha => ih a ha ha

theorem acc_iff_acyclic {α : Type} {follows : α → α → Prop} {a : α}
 (hfinite : {b | Relation.ReflTransGen follows a b}.Finite) :
 Acc (fun y x => follows x y) a ↔
  ∀ b, Relation.ReflTransGen follows a b → ¬ Relation.TransGen follows b b := by
 constructor
 · intro hacc b hb
   have hb_acc : Acc (fun y x => follows x y) b := by
    induction hb with
    | refl => exact hacc
    | tail _ hstep ih => exact ih.inv hstep
   exact fun hloop => not_self_of_acc hb_acc.transGen (Relation.transGen_swap.mpr hloop)
 · intro hacyclic
   have finite : Finite {b // Relation.ReflTransGen follows a b} := hfinite
   let below (y x : {b // Relation.ReflTransGen follows a b}) : Prop :=
    Relation.TransGen follows x.val y.val
   have trans : IsTrans _ below := ⟨fun _ _ _ hxy hyz => hyz.trans hxy⟩
   have irrefl : Std.Irrefl below := ⟨fun x => hacyclic x.val x.property⟩
   have wf : WellFounded below := Finite.wellFounded_of_trans_of_irrefl below
   have all : ∀ x : {b // Relation.ReflTransGen follows a b},
    Acc (fun y x => follows x y) x.val := by
    intro x
    induction x using wf.induction with
    | _ x ih =>
     refine ⟨_, fun y hy => ?_⟩
     exact ih ⟨y, x.property.tail hy⟩ (.single hy)
   exact all ⟨a, .refl⟩

section Merging

variable {h : AstHeap} {callback : AstHeap → ℕ → Result}

theorem walkForward_same (hcall : ∀ c, callback h c = .ok h ∨ callback h c = .error .returnsFalse)
 (fuel : ℕ) : ∀ {start : Option ℕ} {h' : AstHeap},
  walkForward callback fuel h start = .ok h' → h' = h := by
 induction fuel with
 | zero =>
  intro start h' hrun
  cases start with
  | none => cases hrun; rfl
  | some c => cases hrun
 | succ fuel ih =>
  intro start h' hrun
  cases start with
  | none => cases hrun; rfl
  | some c =>
   rw [walkForward] at hrun
   rcases hcall c with hc | hc
   · rw [hc] at hrun
     change (walkForward callback fuel h (h.child c) >>=
      fun h₁ => walkForward callback fuel h₁ (h₁.next c)) = _ at hrun
     cases hchild : walkForward callback fuel h (h.child c) with
     | error e =>
      rw [hchild] at hrun
      cases hrun
     | ok h₁ =>
      obtain rfl := ih hchild
      rw [hchild] at hrun
      exact ih hrun
   · rw [hc] at hrun
     cases hrun

theorem walkForward_visit (hcall : ∀ c, callback h c = .ok h ∨ callback h c = .error .returnsFalse)
 {c : ℕ} (hchild : Ends Stop.noReturn fun fuel => walkForward callback fuel h (h.child c))
 (hnext : Ends Stop.noReturn fun fuel => walkForward callback fuel h (h.next c)) :
 Ends Stop.noReturn fun fuel => walkForward callback fuel h (some c) := by
 have more {start : Option ℕ} {m n : ℕ} (hle : m ≤ n) :
  More (walkForward callback m h start) (walkForward callback n h start) :=
  extends_of_le (fun n => walkForward_more (fun _ _ => .refl _) n h start) hle
 obtain ⟨m, hm⟩ := hchild
 obtain ⟨n, hn⟩ := hnext
 dsimp only at hm hn
 refine ⟨max m n + 1, ?_⟩
 dsimp only
 rw [walkForward]
 rcases hcall c with hc | hc
 · rw [hc]
   change (walkForward callback (max m n) h (h.child c) >>=
    fun h₁ => walkForward callback (max m n) h₁ (h₁.next c)) ≠ _
   rw [more (Nat.le_max_left m n) hm]
   cases hrun : walkForward callback m h (h.child c) with
   | error e =>
    rw [hrun] at hm
    exact fun hout => hm (by cases hout; rfl)
   | ok h₁ =>
    obtain rfl := walkForward_same hcall m hrun
    change walkForward callback (max m n) h₁ (h₁.next c) ≠ _
    rw [more (Nat.le_max_right m n) hn]
    exact hn
 · rw [hc]
   exact fun hout => by cases hout

theorem walkForward_ends (hw : WellFormed h)
 (hcall : ∀ c, callback h c = .ok h ∨ callback h c = .error .returnsFalse) (k : ℕ) :
 ∀ {p : ℕ} {done rest : List ℕ}, h.size ≤ p + k → (h.get p).children = done ++ rest →
  Ends Stop.noReturn fun fuel => walkForward callback fuel h rest.head? := by
 have nothing : Ends Stop.noReturn fun fuel => walkForward callback fuel h none := by
  refine ⟨0, ?_⟩
  exact fun hout => by cases hout
 induction k with
 | zero =>
  intro p done rest hp hchildren
  rw [get_of_size_le (show h.size ≤ p from hp)] at hchildren
  obtain ⟨-, rfl⟩ := List.append_eq_nil_iff.mp hchildren.symm
  exact nothing
 | succ k ih =>
  intro p done rest hp hchildren
  induction rest generalizing done with
  | nil => exact nothing
  | cons c rest ihRest =>
   have hmem : c ∈ (h.get p).children := by
    rw [hchildren]
    exact List.mem_append_right _ List.mem_cons_self
   refine walkForward_visit hcall ?_ ?_
   · exact ih (by have := hw.older hmem; omega) (List.nil_append _).symm
   · rw [next_of_children hw hchildren]
     exact @ihRest (done ++ [c]) (by rw [hchildren, List.append_assoc]; rfl)

end Merging

theorem redefineCheckAt_cases (h : AstHeap) (c : ℕ) :
 redefineCheckAt h c = .ok h ∨ redefineCheckAt h c = .error .returnsFalse := by
 rw [redefineCheckAt]
 split_ifs
 · exact .inr rfl
 · exact .inl rfl

theorem redefineCheckFile_ends (root : Option SourceObjects) :
 Ends Stop.noReturn fun fuel => redefineCheckFile fuel root := by
 cases root with
 | none => exact ⟨0, fun hout => by cases hout⟩
 | some source =>
  have hw := (ofSource_built false source).wellFormed
  have hcall := redefineCheckAt_cases (Ast.ofSource false source).heap
  have walk : Ends Stop.noReturn fun fuel =>
   walkForward redefineCheckAt fuel (Ast.ofSource false source).heap (some 0) := by
   refine walkForward_visit hcall ?_ ?_
   · exact walkForward_ends hw hcall _ (Nat.le_add_left _ _) (List.nil_append _).symm
   · rw [next_zero hw]
     exact ⟨0, fun hout => by cases hout⟩
  obtain ⟨fuel, hfuel⟩ := walk
  refine ⟨fuel, ?_⟩
  change ((walkForward redefineCheckAt fuel (Ast.ofSource false source).heap (some 0) >>= _) >>=
   _) ≠ _
  dsimp only at hfuel
  cases hrun : walkForward redefineCheckAt fuel (Ast.ofSource false source).heap (some 0) with
  | error e =>
   rw [hrun] at hfuel
   exact fun hout => hfuel (by cases hout; rfl)
  | ok h' => exact fun hout => by cases hout

theorem mergeAsts_ends (astList : List (Option SourceObjects)) : ∀ astRoot,
 Ends Stop.noReturn fun fuel => mergeAsts fuel astRoot astList := by
 induction astList with
 | nil => exact fun _ => ⟨0, fun hout => by cases hout⟩
 | cons root astList ih =>
  intro astRoot
  exact (ends_bind_iff (fun n => redefineCheckFile_more n root)
   fun n _ => mergeAsts_more n (mergeRoot astRoot root) astList).mpr
    ⟨redefineCheckFile_ends root, fun _ _ _ => ih _⟩

theorem mergeAst_ends (astRoot : Option SourceObjects) (astList : List (Option SourceObjects)) :
 Ends Stop.noReturn fun fuel => mergeAst fuel astRoot astList :=
 (ends_bind_iff (fun n => redefineCheckFile_more n astRoot)
  fun n _ => mergeAsts_more n astRoot astList).mpr
   ⟨redefineCheckFile_ends astRoot, fun _ _ _ => mergeAsts_ends astList astRoot⟩

variable (parseOne : Str → Option SourceFile)

variable (fuel : ℕ) (sourceName : Str)

theorem parseMerged_more :
 More (parseMerged parseOne fuel sourceName) (parseMerged parseOne (fuel + 1) sourceName) :=
 (readSources_more _ _ _).bind fun _ _ => mergeAst_more _ _ _

theorem parseMerged_ends_iff :
 (Ends Stop.noReturn fun fuel => parseMerged parseOne fuel sourceName) ↔
  Ends Stop.noReturn fun fuel => readSources parseOne fuel [sourceName] := by
 refine (ends_bind_iff (fun n => readSources_more parseOne n [sourceName])
  fun n astList =>
   mergeAst_more n (mainLast astList).head?.join (mainLast astList).tail).trans ?_
 exact and_iff_left fun _ _ _ => mergeAst_ends _ _

theorem mergesTo_iff (source : SourceObjects) :
 MergesTo parseOne sourceName source ↔
  ∃ fuel, parseMerged parseOne fuel sourceName = .ok (some source) := by
 constructor
 · rintro ⟨roots, hloads, n, hn⟩
   obtain ⟨m, hm⟩ := hloads.read
   have hread : readSources parseOne m [sourceName] = .ok roots := by
    have hdone := hm 0 []
    rw [readSources] at hdone
    simpa [Except.map] using hdone
   have reads : readSources parseOne (max m n) [sourceName] = .ok roots := by
    rw [More.of_le (fun n => readSources_more parseOne n [sourceName]) (Nat.le_max_left m n)
     (by rw [hread]; exact fun hout => by cases hout), hread]
   refine ⟨max m n, ?_⟩
   rw [parseMerged, reads]
   change mergeAst (max m n) (mainLast roots).head?.join (mainLast roots).tail = _
   rw [More.of_le (fun n => mergeAst_more n _ _) (Nat.le_max_right m n)
    (by rw [hn]; exact fun hout => by cases hout), hn]
 · rintro ⟨fuel, hfuel⟩
   rw [parseMerged] at hfuel
   cases hread : readSources parseOne fuel [sourceName] with
   | error e =>
    rw [hread] at hfuel
    cases hfuel
   | ok roots =>
    rw [hread] at hfuel
    exact ⟨roots, loads_of_read hread, fuel, hfuel⟩

def expandMerged (fuel : ℕ) : Option SourceObjects → Except Stop Ast
 | none => .error .returnsFalse
 | some source => (Ast.ofSource true source).expand fuel

theorem parse_eq : parse parseOne fuel sourceName =
  parseMerged parseOne fuel sourceName >>= expandMerged fuel := by
 rw [parse]
 congr 1

theorem expandMerged_more (source : Option SourceObjects) :
 More (expandMerged fuel source) (expandMerged (fuel + 1) source) := by
 cases source with
 | none => exact .refl _
 | some source => exact expand_more _ _

theorem parseEnds_iff : ParseEnds parseOne sourceName ↔
  (Ends Stop.noReturn fun fuel => readSources parseOne fuel [sourceName]) ∧
   ∀ source, MergesTo parseOne sourceName source → ExpandEnds source := by
 rw [ParseEnds]
 simp only [parse_eq]
 refine (ends_bind_iff (fun n => parseMerged_more parseOne n sourceName)
  fun n source => expandMerged_more n source).trans ?_
 rw [parseMerged_ends_iff]
 refine and_congr_right fun _ => ?_
 simp only [mergesTo_iff]
 constructor
 · rintro h source ⟨fuel, hfuel⟩
   exact h fuel (some source) hfuel
 · intro h fuel source hfuel
   cases source with
   | none => exact ⟨0, fun hout => by cases hout⟩
   | some source => exact h source ⟨fuel, hfuel⟩

theorem finite_follows (files : List (Str × SourceFile)) (src : Str) :
 {f | Relation.ReflTransGen (Follows (fileAt files)) src f}.Finite := by
 refine (List.finite_toSet (src :: files.flatMap fun file => file.2.includes)).subset ?_
 intro f hf
 rcases Relation.ReflTransGen.cases_tail hf with rfl | ⟨g, -, file, before, behind, hfile, heq, -⟩
 · exact List.mem_cons_self
 · obtain ⟨entry, hentry, rfl⟩ := Option.map_eq_some_iff.mp hfile
   have hmem := List.mem_of_find?_eq_some hentry
   refine List.mem_cons_of_mem _ (List.mem_flatMap.mpr ⟨entry, hmem, ?_⟩)
   rw [heq]
   exact List.mem_append_right _ List.mem_cons_self

def selfIncluding : List (Str × SourceFile) := [([0x61], ⟨[[0x61]], none⟩)]

end DriversFramework.HcAst
