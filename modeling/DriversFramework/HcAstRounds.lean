import DriversFramework.HcAstMerge
import DriversFramework.RoundRules

namespace DriversFramework.HcAst

open RoundRules

abbrev More {α : Type} (r r' : Except Stop α) : Prop := Extends Stop.noReturn r r'

theorem More.of_le {α : Type} {f : ℕ → Except Stop α} (h : ∀ n, More (f n) (f (n + 1)))
 {m n : ℕ} (hle : m ≤ n) : More (f m) (f n) := extends_of_le h hle

variable (fuel : ℕ) (h : AstHeap)

theorem buildChildren_more (dst : ℕ) (children : List ℕ) :
 More (buildChildren fuel h dst children) (buildChildren (fuel + 1) h dst children) := by
 induction fuel generalizing h dst children with
 | zero =>
  cases children with
  | nil => exact .refl _
  | cons child children => exact .of_out _
 | succ fuel ih =>
  cases children with
  | nil => exact .refl _
  | cons child children =>
   rw [buildChildren, buildChildren]
   exact (ih _ _ _).bind fun h' _ => ih _ _ _

theorem copyNode_more (dst : ℕ) (child : Option ℕ) (overwrite : Bool) :
 More (copyNode fuel h dst child overwrite) (copyNode (fuel + 1) h dst child overwrite) := by
 induction fuel generalizing h dst child overwrite with
 | zero =>
  cases child with
  | none => exact .refl _
  | some child => exact .of_out _
 | succ fuel ih =>
  cases child with
  | none => exact .refl _
  | some child =>
   rw [copyNode, copyNode]
   cases h.lookupChild dst (h.get child).name (some (h.get child).type) with
   | none => exact (buildChildren_more _ _ _ _).bind fun h' _ => ih _ _ _ _
   | some peer =>
    dsimp only
    split_ifs
    · exact (ih _ _ _ _).bind fun h' _ => ih _ _ _ _
    · exact (Extends.refl _).bind fun h' _ => ih _ _ _ _
    · exact (Extends.refl _).bind fun h' _ => ih _ _ _ _
    · exact (Extends.refl _).bind fun h' _ => ih _ _ _ _

theorem move_more (dst src : ℕ) : More (move fuel h dst src) (move (fuel + 1) h dst src) := by
 rw [move, move]
 split_ifs
 · exact (copyNode_more _ _ _ _ _).bind fun h' _ => .refl _
 · exact .refl _
 · exact .refl _

theorem isElders_more (a : ℕ) (p : Option ℕ) :
 More (isElders fuel h a p) (isElders (fuel + 1) h a p) := by
 induction fuel generalizing p with
 | zero =>
  cases p with
  | none => exact .refl _
  | some p => exact .of_out _
 | succ fuel ih =>
  cases p with
  | none => exact .refl _
  | some p =>
   rw [isElders, isElders]
   split_ifs
   · exact .refl _
   · exact ih _

theorem nodeRefExpand_more (node : ℕ) (ref : Option ℕ) :
 More (nodeRefExpand fuel h node ref) (nodeRefExpand (fuel + 1) h node ref) := by
 cases ref with
 | none => exact .refl _
 | some ref =>
  rw [nodeRefExpand, nodeRefExpand]
  refine (isElders_more _ _ _ _).bind fun elder _ => ?_
  split_ifs
  · exact .refl _
  · exact move_more _ _ _ _
  · exact copyNode_more _ _ _ _ _
  · exact .refl _

theorem nodeExpandAt_more (astRoot : ℕ) (h : AstHeap) (current : ℕ) :
 More (nodeExpandAt fuel astRoot h current) (nodeExpandAt (fuel + 1) astRoot h current) := by
 rw [nodeExpandAt, nodeExpandAt]
 split_ifs
 · exact .refl _
 · exact .refl _
 · exact nodeRefExpand_more _ _ _ _
 · exact .refl _
 · exact .refl _

theorem compare_more (node : ℕ) (children : List ℕ) :
 More (compare fuel h node children) (compare (fuel + 1) h node children) := by
 induction fuel generalizing node children with
 | zero =>
  cases children with
  | nil => exact .refl _
  | cons child children => exact .of_out _
 | succ fuel ih =>
  cases children with
  | nil => exact .refl _
  | cons objChild rest =>
   rw [compare, compare]
   cases h.lookupChild node (h.get objChild).name (some (h.get objChild).type) with
   | none => exact .refl _
   | some peer =>
    dsimp only
    split_ifs
    · exact ih _ _
    · exact ih _ _

theorem inheritExpand_more (node : ℕ) (ref : Option ℕ) :
 More (inheritExpand fuel h node ref) (inheritExpand (fuel + 1) h node ref) := by
 cases ref with
 | none => exact .refl _
 | some ref =>
  rw [inheritExpand, inheritExpand]
  refine (copyNode_more _ _ _ _ _).bind fun h' _ => ?_
  split_ifs
  · exact (compare_more _ _ _ _).bind fun same _ => .refl _
  · exact .refl _

theorem inheritExpandAt_more (astRoot : ℕ) (h : AstHeap) (current : ℕ) :
 More (inheritExpandAt fuel astRoot h current)
  (inheritExpandAt (fuel + 1) astRoot h current) := by
 rw [inheritExpandAt, inheritExpandAt]
 split_ifs
 · exact inheritExpand_more _ _ _ _
 · exact .refl _

section Walks

variable {callback callback' : AstHeap → ℕ → Result}

theorem walkBackward_more (hcall : ∀ h c, More (callback h c) (callback' h c)) (fuel : ℕ)
 (h : AstHeap) (start : Option ℕ) :
 More (walkBackward callback fuel h start) (walkBackward callback' (fuel + 1) h start) := by
 induction fuel generalizing h start with
 | zero =>
  cases start with
  | none => exact .refl _
  | some current => exact .of_out _
 | succ fuel ih =>
  cases start with
  | none => exact .refl _
  | some current =>
   rw [walkBackward, walkBackward]
   exact (ih _ _).bind fun h₁ _ => (hcall _ _).bind fun h₂ _ => ih _ _

theorem walkForward_more (hcall : ∀ h c, More (callback h c) (callback' h c)) (fuel : ℕ)
 (h : AstHeap) (start : Option ℕ) :
 More (walkForward callback fuel h start) (walkForward callback' (fuel + 1) h start) := by
 induction fuel generalizing h start with
 | zero =>
  cases start with
  | none => exact .refl _
  | some current => exact .of_out _
 | succ fuel ih =>
  cases start with
  | none => exact .refl _
  | some current =>
   rw [walkForward, walkForward]
   exact (hcall _ _).bind fun h₁ _ => (ih _ _).bind fun h₂ _ => ih _ _

end Walks

theorem redefineCheck_more (ast : Ast) :
 More (ast.redefineCheck fuel) (ast.redefineCheck (fuel + 1)) := by
 rw [Ast.redefineCheck, Ast.redefineCheck]
 split_ifs
 · exact .refl _
 · exact (walkForward_more (fun _ _ => .refl _) _ _ _).bind fun h _ => .refl _

theorem expand_more (ast : Ast) : More (ast.expand fuel) (ast.expand (fuel + 1)) := by
 rw [Ast.expand, Ast.expand]
 refine (redefineCheck_more _ _).bind fun checked _ => ?_
 cases checked.heap.lookupChild checked.astRoot Ast.moduleName (some .confTerm) with
 | none => exact .refl _
 | some module =>
  refine Extends.bind ?_ fun expanded _ => ?_
  · exact (walkBackward_more (nodeExpandAt_more fuel _) _ _ _).bind fun h _ => .refl _
  · exact (walkForward_more (inheritExpandAt_more fuel _) _ _ _).bind fun h _ => .refl _

theorem readSources_more (parseOne : Str → Option SourceFile) (fuel : ℕ) (srcQueue : List Str) :
 More (readSources parseOne fuel srcQueue) (readSources parseOne (fuel + 1) srcQueue) := by
 induction fuel generalizing srcQueue with
 | zero =>
  cases srcQueue with
  | nil => exact .refl _
  | cons src srcQueue => exact .of_out _
 | succ fuel ih =>
  cases srcQueue with
  | nil => exact .refl _
  | cons src srcQueue =>
   rw [readSources, readSources]
   cases parseOne src with
   | none => exact .refl _
   | some file => exact (ih _).bind fun astList _ => .refl _

theorem redefineCheckFile_more (root : Option SourceObjects) :
 More (redefineCheckFile fuel root) (redefineCheckFile (fuel + 1) root) := by
 cases root with
 | none => exact .refl _
 | some source => exact (redefineCheck_more _ _).bind fun _ _ => .refl _

theorem mergeAsts_more (astRoot : Option SourceObjects) (astList : List (Option SourceObjects)) :
 More (mergeAsts fuel astRoot astList) (mergeAsts (fuel + 1) astRoot astList) := by
 induction astList generalizing astRoot with
 | nil => exact .refl _
 | cons root astList ih =>
  rw [mergeAsts, mergeAsts]
  exact (redefineCheckFile_more _ _).bind fun _ _ => ih _

theorem mergeAst_more (astRoot : Option SourceObjects) (astList : List (Option SourceObjects)) :
 More (mergeAst fuel astRoot astList) (mergeAst (fuel + 1) astRoot astList) :=
 (redefineCheckFile_more _ _).bind fun _ _ => mergeAsts_more _ _ _

end DriversFramework.HcAst
