import DriversFramework.HcAstByteCode
import DriversFramework.HcAstInstances
import DriversFramework.HcTextGen
import DriversFramework.Numerals

namespace DriversFramework.HcAst

open AstHeap TreeWalks Numerals

def trueCount (h : AstHeap) : Count → ℕ
 | .elements array => (h.get array).children.length
 | .instances template => (h.get template).subClasses.length
 | .index _ place => place

def shownCount (h : AstHeap) : Count → ℕ
 | .elements array => (h.get array).shownSize
 | .instances template => (h.get template).inheritCount.toNat
 | .index template place =>
  (h.get ((h.get template).subClasses.getD place 0)).inheritIndex.toNat

/-- The count fits the number that keeps it. -/
def Count.Fits (h : AstHeap) : Count → Prop
 | .elements array => (h.get array).CountFits
 | .instances template => (h.get template).subClasses.length < 2 ^ 32
 | .index _ place => place < 2 ^ 32

def Count.Stands (h : AstHeap) : Count → Prop
 | .elements array => (h.get array).type = .array ∧ (h.get array).parent ≠ none
 | .instances _ => True
 | .index template place => place < (h.get template).subClasses.length

def Insert.count : Insert → Option Count
 | .number count _ => some count
 | .decimal count _ => some count
 | _ => none

/-- Each count in the file is printed as a constant that has its value. -/
def CountsDenote (h : AstHeap) (hex : Bool) (file : List Insert) : Prop :=
 ∀ (front back : List Insert) (insert : Insert), file = front ++ insert :: back →
  ∀ count ∈ insert.count,
   readDecimal (insert.print (hexAfter hex front)) = some (trueCount h count)

def TextFiles.CountsDenote (h : AstHeap) (files : TextFiles) : Prop :=
 HcAst.CountsDenote h false files.header ∧
  HcAst.CountsDenote h (hexAfter false files.header) files.impl

inductive Item where
 | literal
 | streamed (count : Count)
 | written (count : Count)
 deriving DecidableEq

def Item.count : Item → Option Count
 | .literal => none
 | .streamed count => some count
 | .written count => some count

section items
variable (g : TextGen)

def valueItems (object : ℕ) : List Item := if (g.h.get object).isNumber then [.literal] else []

def elementItems (array : ℕ) : List Item := (g.h.get array).children.flatMap (valueItems g)

def TextGen.arrayOf (term : ℕ) : Option ℕ :=
 (g.h.child term).filter fun value => (g.h.get value).type = .array

def definitionItems (object : ℕ) : List Item :=
 let o := g.h.get object
 if ¬ o.isNode ∧ o.isTerm ∧ ¬ isInTemplate g.h object then
  (g.arrayOf object).toList.map fun array => .streamed (.elements array)
 else []

def headerItems : List Str → List ℕ → List Item
 | _, [] => []
 | symbolSet, object :: objects =>
  if (g.h.get object).isNode ∧ (g.h.get object).nodeType ≠ .inherit then
   let structName := genConfigStructName g object
   if symbolSet.contains structName then headerItems symbolSet objects
   else
    (g.children object).flatMap (definitionItems g) ++
     headerItems (structName :: symbolSet) objects
  else headerItems symbolSet objects

def declaredItems (object : ℕ) : List Item :=
 if (g.h.get object).isTerm ∧ isInSubClassNode g.h object then
  (g.arrayOf object).toList.flatMap fun array =>
   .streamed (.elements array) :: elementItems g array
 else []

def shownItems (object : ℕ) : List Item :=
 let o := g.h.get object
 if o.isNode then if o.nodeType = .template then [.streamed (.instances object)] else []
 else if o.isTerm then
  match g.h.child object with
  | none => []
  | some value =>
   if (g.h.get value).type = .array then
    if isInSubClassNode g.h object then [.written (.elements value)] else elementItems g value
   else valueItems g value
 else []

def enters (object : ℕ) : Bool :=
 (!(g.h.get object).isNode || (g.h.get object).nodeType = .noRef) && !(g.children object).isEmpty

def callItems (items : ℕ → List Item) (call : Bool × ℕ × ℕ) : List Item :=
 if call.1 then items call.2.1 else []

def TextGen.levels : ℕ := g.h.size + 1

def bodyItems (object : ℕ) : List Item :=
 (roundOrder g.children (enters g) g.levels 0 object).flatMap (callItems (shownItems g))

def instanceItems (template : ℕ) (subClass : ℕ × ℕ) : List Item :=
 .streamed (.index template subClass.2) :: (g.children subClass.1).flatMap (bodyItems g)

def templateItems (object : ℕ) : List Item :=
 let o := g.h.get object
 if o.isTemplate ∧ o.inheritCount ≠ 0 then o.subClasses.zipIdx.flatMap (instanceItems g object)
 else []

def rootItems (object : ℕ) : List Item :=
 let o := g.h.get object
 if o.isTerm ∧ isInSubClassNode g.h object ∨ object = g.astRoot then [] else shownItems g object

def rootEnters (object : ℕ) : Bool :=
 let o := g.h.get object
 (!o.isNode || object = g.astRoot || o.nodeType = .noRef) && !(g.children object).isEmpty

def TextGen.headerItems : List Item :=
 HcAst.headerItems g [] (postorder g.children g.levels g.astRoot)

def TextGen.implItems : List Item :=
 (postorder g.children g.levels g.astRoot).flatMap (declaredItems g) ++
  (postorder g.children g.levels g.astRoot).flatMap (templateItems g) ++
  (roundOrder g.children (rootEnters g) g.levels 0 g.astRoot).flatMap (callItems (rootItems g))

/-- The counts in both files fit, and those put into the stream of the code behind a number of the
configuration have one digit. -/
structure TextGen.CountsReadable : Prop where
 fits : ∀ item ∈ g.headerItems ++ g.implItems, ∀ count ∈ item.count, count.Fits g.h
 small : ∀ (front back : List Item) (count : Count),
  g.implItems = front ++ .streamed count :: back → .literal ∈ front → trueCount g.h count < 10

end items

def Insert.mark : Insert → Option (Item × ℕ)
 | .literal _ => some (.literal, 0)
 | .number count value => some (.streamed count, value)
 | .decimal count value => some (.written count, value)
 | _ => none

def marks (file : List Insert) : List (Item × ℕ) := file.filterMap Insert.mark

def Item.mark (h : AstHeap) (item : Item) : Item × ℕ := (item, item.count.elim 0 (shownCount h))

theorem marks_append (front back : List Insert) : marks
 (front ++ back) = marks front ++ marks back :=
 List.filterMap_append

variable {object term : ℕ}

section state
variable {g : TextGen} {s t : TextState}

def Brings (g : TextGen) (s t : TextState) (items : List Item) : Prop :=
 marks t.out = marks s.out ++ items.map (Item.mark g.h)

theorem Brings.trans {u : TextState} {items items' : List Item} (first : Brings g s t items)
 (second : Brings g t u items') : Brings g s u (items ++ items') := by
 rw [Brings, second, first, List.append_assoc, List.map_append]

theorem brings_nil (same : t.out = s.out) : Brings g s t [] := by
 rw [Brings, same]
 exact (List.append_nil _).symm

theorem brings_put {inserts : List Insert} {items : List Item}
 (put : marks inserts = items.map (Item.mark g.h)) : Brings g s (s.put inserts) items := by
 rw [Brings, ← put]
 exact marks_append s.out inserts

theorem brings_texts {inserts : List Insert} (silent : marks inserts = []) :
 Brings g s (s.put inserts) [] :=
 brings_put silent

theorem brings_foldlM {α : Type} {step : TextState → α → TextResult} (items : α → List Item)
 {as : List α} (one : ∀ a ∈ as, ∀ s t, step s a = .ok t → Brings g s t (items a))
 (run : as.foldlM step s = .ok t) : Brings g s t (as.flatMap items) := by
 have adds := foldlM_adds (fun s => marks s.out) one run
 rw [Brings, adds, List.map_flatMap]

theorem genArrayName_out (term : ℕ) : (genArrayName g s term).2.out = s.out := by
 unfold genArrayName symbolAdd
 dsimp only
 split
 · split <;> rfl
 · split <;> rfl

theorem genTemplateVariableName_out (object : ℕ) :
 (genTemplateVariableName g s object).2.out = s.out := by
 unfold genTemplateVariableName symbolAdd
 dsimp only
 split <;> split <;> (try split) <;> rfl

theorem marks_printBaseTypeValue (object : ℕ) :
 marks (printBaseTypeValue g object) = (valueItems g object).map (Item.mark g.h) := by
 unfold printBaseTypeValue valueItems AstObject.isNumber
 dsimp only
 cases (g.h.get object).type <;> rfl

theorem marks_hcsPrintElements (times : ℕ) (elements : List ℕ) : ∀ elementCount : ℕ,
 marks (hcsPrintElements g times elementCount elements) =
  (elements.flatMap (valueItems g)).map (Item.mark g.h) := by
 induction elements with
 | nil => exact fun _ => rfl
 | cons element elements ih =>
  intro elementCount
  have line : marks (if elementPerLine ≤ elementCount then [.text "\n", indent times] else []) =
   [] := by
   split <;> rfl
  have comma : marks (if elements = [] then [] else [.text ", "]) = [] := by
   split <;> rfl
  rw [hcsPrintElements, marks_append, marks_append, marks_append, line, comma,
   marks_printBaseTypeValue, ih, List.append_nil, List.append_nil, List.flatMap_cons,
   List.map_append]

theorem marks_hcsPrintArrayContent (array times : ℕ) :
 marks (hcsPrintArrayContent g array times) = (elementItems g array).map (Item.mark g.h) :=
 marks_hcsPrintElements times _ 0

variable {depth value : ℕ}

theorem arrayOf_eq (child : g.h.child term = some value)
 (array : (g.h.get value).type = .array) : g.arrayOf term = some value := by
 rw [TextGen.arrayOf, child, Option.filter_some, if_pos (by simpa using array)]

theorem arrayOf_none (child : g.h.child term = some value)
 (other : (g.h.get value).type ≠ .array) : g.arrayOf term = none := by
 rw [TextGen.arrayOf, child, Option.filter_some, if_neg (by simpa using other)]

theorem genTermDefinition_brings (isTerm : (g.h.get term).isTerm = true)
 (notNode : (g.h.get term).isNode = false) (run : genTermDefinition g s term = .ok t) :
 Brings g s t (definitionItems g term) := by
 unfold genTermDefinition at run
 unfold definitionItems
 dsimp only at run ⊢
 rw [notNode, isTerm]
 cases child : g.h.child term with
 | none =>
  rw [child] at run
  cases run
 | some value =>
  rw [child] at run
  dsimp only at run
  by_cases array : (g.h.get value).type = .array
  · rw [array] at run
    rw [arrayOf_eq child array]
    by_cases inside : isInTemplate g.h term = true
    · rw [if_pos inside] at run
      cases run
      rw [inside]
      exact brings_put rfl
    · rw [if_neg inside] at run
      cases run
      rw [Bool.not_eq_true] at inside
      rw [inside]
      exact brings_put rfl
  rw [arrayOf_none child array]
  have nothing : (if ¬false = true ∧ true = true ∧ ¬isInTemplate g.h term = true then
   (none : Option ℕ).toList.map fun array => Item.streamed (.elements array) else []) = [] := by
   split <;> rfl
  rw [nothing]
  split at run
  · next same => exact absurd same array
  iterate 5
   cases run
   exact brings_put rfl
  · split at run
    · cases run
    · cases run
      exact brings_put rfl
  · cases run
    exact brings_nil rfl

theorem genObjectDefinitionGen_brings (run : genObjectDefinitionGen g s object = .ok t) :
 Brings g s t (definitionItems g object) := by
 unfold genObjectDefinitionGen at run
 dsimp only at run
 by_cases node : (g.h.get object).isNode = true
 · have nothing : definitionItems g object = [] := by
    rw [definitionItems, if_neg fun both => both.1 node]
   rw [if_pos node] at run
   rw [nothing]
   split at run
   · cases run
     exact brings_put rfl
   · cases run
     exact brings_nil rfl
   · cases run
     exact brings_put rfl
 · rw [if_neg node] at run
   by_cases term : (g.h.get object).isTerm = true
   · rw [if_pos term] at run
     exact genTermDefinition_brings term (by simpa using node) run
   rw [if_neg term] at run
   cases run
   have nothing : definitionItems g object = [] := by
    rw [definitionItems, if_neg fun both => term both.2.1]
   rw [nothing]
   exact brings_nil rfl

theorem genObjectDefinitionGen_symbolSet
 (run : genObjectDefinitionGen g s object = .ok t) : t.symbolSet = s.symbolSet := by
 unfold genObjectDefinitionGen genTermDefinition at run
 dsimp only at run
 repeat' split at run
 all_goals
  cases run
  try rfl

theorem genNodeDefinition_brings {node : ℕ}
 (new : ¬s.symbolSet.contains (genConfigStructName g node))
 (run : genNodeDefinition g s node = .ok t) :
 Brings g s t ((g.children node).flatMap (definitionItems g)) ∧
  t.symbolSet = genConfigStructName g node :: s.symbolSet := by
 rw [genNodeDefinition, if_neg new] at run
 dsimp only at run
 obtain ⟨u, members, last⟩ := bind_ok_iff.mp run
 cases last
 constructor
 · have first : Brings g s (({ s with symbolSet := genConfigStructName g node :: s.symbolSet } :
    TextState).put [.text "struct ", g.structTag node, .text " \x7b\n"]) [] :=
    (brings_nil rfl).trans (brings_put rfl)
   have rest := brings_foldlM _ (fun _ _ _ _ call => genObjectDefinitionGen_brings call) members
   have behind : Brings g u (u.put [.text "\x7d;\n\n"]) [] := brings_texts rfl
   have whole := (first.trans rest).trans behind
   rwa [List.nil_append, List.append_nil] at whole
 · have same := foldlM_keeps
    (fun s' : TextState => s'.symbolSet = genConfigStructName g node :: s.symbolSet)
    (fun _ _ _ _ same call => (genObjectDefinitionGen_symbolSet call).trans same) members
   exact same rfl

theorem headerAt_brings : ∀ {objects : List ℕ} {s : TextState},
 objects.foldlM (headerAt g) s = .ok t → Brings g s t (headerItems g s.symbolSet objects)
 | [], s, run => by
  cases run
  exact brings_nil rfl
 | object :: objects, s, run => by
  rw [List.foldlM_cons, bind_ok_iff] at run
  obtain ⟨u, call, run⟩ := run
  have rest := headerAt_brings run
  rw [headerAt] at call
  rw [headerItems]
  dsimp only
  split at call
  · next node =>
    rw [if_pos node]
    by_cases old : s.symbolSet.contains (genConfigStructName g object)
    · rw [genNodeDefinition, if_pos old] at call
      cases call
      rw [if_pos old]
      exact rest
    · obtain ⟨first, symbols⟩ := genNodeDefinition_brings old call
      rw [symbols] at rest
      rw [if_neg old]
      exact first.trans rest
  · next other =>
    cases call
    rw [if_neg other]
    exact rest

theorem headerOutput_brings {rounds : ℕ} (within : Within g.children g.levels g.astRoot)
 (start : s.symbolSet = []) (run : headerOutput g rounds s = .ok t) :
 Brings g s t g.headerItems := by
 unfold headerOutput at run
 dsimp only at run
 obtain ⟨u, walk, last⟩ := bind_ok_iff.mp run
 cases last
 have nodes := headerAt_brings (walkBackward_order within walk)
 rw [show (s.put _).symbolSet = s.symbolSet from rfl, start] at nodes
 have before : Brings g s (s.put [fileHeadComment, .text "#ifndef ", headerProtectMacro g,
  .text "\n", .text "#define ", headerProtectMacro g, .text "\n\n",
  .text "#include <stdint.h>\n\n"]) [] := brings_put rfl
 have behind : Brings g u ((u.put (rootFunction g ++ [.text ";\n"])).put
  [.text "\n#endif // ", headerProtectMacro g, .text "\n"]) [] :=
  Brings.trans (brings_texts rfl) (brings_texts rfl)
 have whole := (before.trans nodes).trans behind
 rwa [List.nil_append, List.append_nil] at whole

theorem arrayVariablesDeclareGen_brings (isTerm : (g.h.get term).isTerm = true)
 (child : g.h.child term = some value) (array : (g.h.get value).type = .array) :
 Brings g s (arrayVariablesDeclareGen g s term value) (declaredItems g term) := by
 unfold arrayVariablesDeclareGen declaredItems
 dsimp only
 split
 · next inside =>
   rw [if_pos ⟨isTerm, inside⟩, arrayOf_eq child array, Option.toList_some,
    List.flatMap_singleton]
   refine (brings_nil (genArrayName_out term)).trans (brings_put ?_)
   rw [marks_append, marks_append, marks_hcsPrintArrayContent]
   exact List.append_nil _
 · next outside =>
   rw [if_neg fun both => outside both.2]
   exact brings_nil rfl

theorem declareAt_brings (run : declareAt g s object = .ok t) :
 Brings g s t (declaredItems g object) := by
 unfold declareAt at run
 dsimp only at run
 by_cases isTerm : (g.h.get object).isTerm = true
 · rw [if_pos isTerm] at run
   cases child : g.h.child object with
   | none =>
    rw [child] at run
    cases run
   | some value =>
    rw [child] at run
    dsimp only at run
    split at run
    · next array =>
      cases run
      exact arrayVariablesDeclareGen_brings isTerm child array
    · next other =>
      cases run
      have nothing : declaredItems g object = [] := by
       rw [declaredItems, arrayOf_none child other]
       split <;> rfl
      rw [nothing]
      exact brings_nil rfl
 · rw [if_neg isTerm] at run
   have nothing : declaredItems g object = [] := by
    rw [declaredItems, if_neg fun both => isTerm both.1]
   rw [nothing]
   split at run
   · cases run
     exact Brings.trans (brings_nil (genTemplateVariableName_out object))
      (brings_texts rfl)
   · cases run
     exact brings_nil rfl

theorem printArrayImplement_brings (depth : ℕ) :
 Brings g s (printArrayImplement g s term value depth)
  (if isInSubClassNode g.h term then [.written (.elements value)]
   else elementItems g value) := by
 unfold printArrayImplement
 split
 · refine (brings_nil (genArrayName_out term)).trans (brings_put ?_)
   rfl
 · refine brings_put ?_
   rw [marks_append, marks_append, marks_hcsPrintArrayContent]
   exact List.append_nil _

theorem printTermImplement_brings (isTerm : (g.h.get term).isTerm = true)
 (notNode : (g.h.get term).isNode = false) (run : printTermImplement g s term depth = .ok t) :
 Brings g s t (shownItems g term) := by
 unfold printTermImplement at run
 unfold shownItems
 dsimp only
 rw [if_neg (by simp [notNode]), if_pos isTerm]
 cases child : g.h.child term with
 | none =>
  rw [child] at run
  cases run
 | some value =>
  rw [child] at run
  dsimp only at run ⊢
  by_cases array : (g.h.get value).type = .array
  · rw [array] at run
    cases run
    rw [if_pos array]
    exact printArrayImplement_brings depth
  rw [if_neg array]
  have shown : Brings g s (s.put ([indent depth, .text ".", g.nameOf term, .text " = "] ++
   printBaseTypeValue g value ++ [.text ",\n"])) (valueItems g value) := by
   refine brings_put ?_
   rw [marks_append, marks_append, marks_printBaseTypeValue]
   exact List.append_nil _
  have nothing : ∀ kind : ObjectType, (g.h.get value).type = kind →
   ObjectType.uint64.code < kind.code → valueItems g value = [] := by
   intro kind same large
   rw [valueItems, AstObject.isNumber, same, if_neg (by simpa using large)]
  cases kind : (g.h.get value).type with
  | uint8 | uint16 | uint32 | uint64 | string =>
   rw [kind] at run
   cases run
   exact shown
  | array => exact absurd kind array
  | nodeRef =>
   rw [kind] at run
   obtain ⟨refPath, -, last⟩ := bind_ok_iff.mp run
   cases last
   rw [nothing _ kind (by decide)]
   exact brings_put rfl
  | confNode | confTerm | delete =>
   rw [kind] at run
   cases run
   rw [nothing _ kind (by decide)]
   exact brings_nil rfl

theorem templateObjectImplGen_brings (depth : ℕ) :
 Brings g s (templateObjectImplGen g s object depth)
  (if (g.h.get object).nodeType = .template then [.streamed (.instances object)] else []) := by
 unfold templateObjectImplGen
 by_cases template : (g.h.get object).nodeType = .template
 · rw [if_neg (not_not.mpr template), if_pos template]
   refine (brings_nil (genTemplateVariableName_out object)).trans (brings_put ?_)
   rw [marks_append, marks_append]
   split <;> rfl
 · rw [if_pos template, if_neg template]
   exact brings_nil rfl

theorem objectImplementGen_brings {descend : Bool}
 (run : objectImplementGen g s object depth = .ok (descend, t)) :
 Brings g s t (shownItems g object) ∧
  (enters g object = true ↔ descend = true ∧ g.children object ≠ []) := by
 unfold objectImplementGen at run
 unfold enters
 dsimp only at run
 by_cases node : (g.h.get object).isNode = true
 · rw [if_pos node] at run
   by_cases plain : (g.h.get object).nodeType = .noRef
   · rw [if_neg (not_not.mpr plain)] at run
     cases run
     constructor
     · have nothing : shownItems g object = [] := by
        rw [shownItems, if_pos node, plain]
        rfl
       rw [nothing]
       refine brings_put ?_
       rw [marks_append]
       split <;> rfl
     · simp [node, plain]
   · rw [if_pos plain] at run
     cases run
     constructor
     · rw [shownItems, if_pos node]
       exact templateObjectImplGen_brings depth
     · simp [node, plain]
 · rw [if_neg node] at run
   rw [Bool.not_eq_true] at node
   by_cases isTerm : (g.h.get object).isTerm = true
   · rw [if_pos isTerm] at run
     obtain ⟨u, shown, last⟩ := bind_ok_iff.mp run
     cases last
     exact ⟨printTermImplement_brings isTerm node shown, by simp [node]⟩
   rw [if_neg isTerm] at run
   cases run
   have nothing : shownItems g object = [] := by
    rw [shownItems, if_neg (by simp [node]), if_neg isTerm]
   rw [nothing]
   exact ⟨brings_nil rfl, by simp [node]⟩

theorem implementCloseBraceGen_brings
 (run : implementCloseBraceGen g s object depth = .ok t) : Brings g s t [] := by
 unfold implementCloseBraceGen at run
 dsimp only at run
 split at run
 · cases run
   exact brings_nil rfl
 · split at run <;>
   · cases run
     exact brings_put rfl

theorem implementGenTraversal_brings {descend : Bool}
 (run : implementGenTraversal g s object depth = .ok (descend, t)) :
 Brings g s t (rootItems g object) ∧
  (rootEnters g object = true ↔ descend = true ∧ g.children object ≠ []) := by
 unfold implementGenTraversal at run
 unfold rootItems rootEnters
 dsimp only at run ⊢
 by_cases other : ¬(g.h.get object).isNode = true ∧ ¬(g.h.get object).isTerm = true
 · rw [if_pos other] at run
   cases run
   have nothing : shownItems g object = [] := by
    rw [shownItems, if_neg other.1, if_neg other.2]
   rw [nothing, ite_self]
   refine ⟨brings_nil rfl, ?_⟩
   simp [other.1]
 rw [if_neg other] at run
 by_cases inside : (g.h.get object).isTerm = true ∧ isInSubClassNode g.h object = true
 · rw [if_pos inside] at run
   cases run
   rw [if_pos (.inl inside)]
   have notNode : (g.h.get object).isNode = false := by
    rw [Bool.eq_false_iff]
    intro node
    have kind := isNode_iff.mp node
    rw [isTerm_iff.mp inside.1] at kind
    cases kind
   exact ⟨brings_nil rfl, by simp [notNode]⟩
 rw [if_neg inside] at run
 by_cases root : object = g.astRoot
 · rw [if_pos root] at run
   cases run
   have out : (g.h.get object).isTerm = true ∧ isInSubClassNode g.h object = true ∨
    object = g.astRoot := .inr root
   rw [if_pos out]
   constructor
   · refine brings_put ?_
     rw [marks_append]
     split <;> rfl
   · simp [root]
 · rw [if_neg root] at run
   rw [if_neg (not_or.mpr ⟨inside, root⟩)]
   obtain ⟨brings, entered⟩ := objectImplementGen_brings run
   refine ⟨brings, ?_⟩
   rw [← entered, enters]
   simp [root]

theorem roundCall_brings {forward : TextState → ℕ → ℕ → Except Stop (Bool × TextState)}
 {backward : TextState → ℕ → ℕ → TextResult} {items : ℕ → List Item}
 (before : ∀ {s t : TextState} {object depth : ℕ} {descend : Bool},
  forward s object depth = .ok (descend, t) → Brings g s t (items object))
 (behind : ∀ {s t : TextState} {object depth : ℕ},
  backward s object depth = .ok t → Brings g s t [])
 (call : Bool × ℕ × ℕ) (run : roundCall forward backward s call = .ok t) :
 Brings g s t (callItems items call) := by
 unfold callItems
 rw [roundCall] at run
 split at run
 · next first =>
   rw [if_pos first]
   cases out : forward s call.2.1 call.2.2 with
   | error e =>
    rw [out] at run
    cases run
   | ok both =>
    obtain ⟨descend, u⟩ := both
    rw [out] at run
    cases run
    exact before out
 · next last =>
   rw [if_neg last]
   exact behind run

variable (within : ∀ object, Within g.children g.levels object)
include within

theorem instanceAt_brings {rounds template : ℕ} {subClass : ℕ × ℕ}
 (place : (g.h.get template).subClasses[subClass.2]? = some subClass.1)
 (run : instanceAt g rounds template s subClass = .ok t) :
 Brings g s t (instanceItems g template subClass) := by
 unfold instanceAt at run
 dsimp only at run
 obtain ⟨u, body, last⟩ := bind_ok_iff.mp run
 cases last
 have before : Brings g s (s.put [indent 1, .text "[", .number (.index template subClass.2)
  (g.h.get subClass.1).inheritIndex.toNat, .text "] = \x7b\n"])
  [.streamed (.index template subClass.2)] := by
  have here : (g.h.get template).subClasses.getD subClass.2 0 = subClass.1 := by
   rw [List.getD_eq_getElem?_getD, place]
   rfl
  have shown : shownCount g.h (.index template subClass.2) =
   (g.h.get subClass.1).inheritIndex.toNat := by
   rw [shownCount, here]
  refine brings_put ?_
  rw [List.map_singleton, Item.mark, Item.count, Option.elim_some, shown]
  rfl
 have middle := brings_foldlM (bodyItems g) (fun object _ s t walk => by
  have order := walkRound_order (enters g) (fun out => (objectImplementGen_brings out).2)
   (within object) walk
  exact brings_foldlM _ (fun call _ s t run => roundCall_brings
   (fun out => (objectImplementGen_brings out).1) implementCloseBraceGen_brings call run) order)
  body
 have behind : Brings g u (u.put [indent 1, .text "\x7d,\n"]) [] := brings_put rfl
 have whole := (before.trans middle).trans behind
 rwa [List.append_nil] at whole

theorem templateAt_brings {rounds : ℕ} (run : templateAt g rounds s object = .ok t) :
 Brings g s t (templateItems g object) := by
 unfold templateAt at run
 unfold templateItems
 dsimp only at run ⊢
 split at run
 · next counted =>
   rw [if_pos counted]
   obtain ⟨u, instances, last⟩ := bind_ok_iff.mp run
   cases last
   have before : Brings g s ((genTemplateVariableName g s object).2.put
    [.text "static const struct ", g.structTag object, .text " ",
     .global object (genTemplateVariableName g s object).1, .text "[] = \x7b\n"]) [] :=
    Brings.trans (brings_nil (genTemplateVariableName_out object)) (brings_texts rfl)
   have middle := brings_foldlM (instanceItems g object) (fun subClass mem s t run => by
    obtain ⟨inside, same⟩ := List.mem_zipIdx' mem
    exact instanceAt_brings within (List.getElem?_eq_some_iff.mpr ⟨inside, same.symm⟩) run)
    instances
   have behind : Brings g u (u.put [.text "\x7d;\n\n"]) [] := brings_put rfl
   have whole := (before.trans middle).trans behind
   rwa [List.nil_append, List.append_nil] at whole
 · next other =>
   cases run
   rw [if_neg other]
   exact brings_nil rfl

theorem implOutput_brings {rounds : ℕ} (run : implOutput g rounds s = .ok t) :
 Brings g s t g.implItems := by
 unfold implOutput at run
 dsimp only at run
 obtain ⟨u, declared, run⟩ := bind_ok_iff.mp run
 obtain ⟨v, instances, run⟩ := bind_ok_iff.mp run
 obtain ⟨w, root, last⟩ := bind_ok_iff.mp run
 cases last
 have tree := within g.astRoot
 have before : Brings g s (s.put [fileHeadComment, .text "#include \"", .name g.outputNameBase,
  .text ".h\"\n\n"]) [] := brings_put rfl
 have first := brings_foldlM _ (fun _ _ _ _ call => declareAt_brings call)
  (walkBackward_order tree declared)
 have second := brings_foldlM _ (fun _ _ _ _ call => templateAt_brings within call)
  (walkBackward_order tree instances)
 have order := walkRound_order (rootEnters g)
  (fun out => (implementGenTraversal_brings out).2) tree root
 have third := brings_foldlM _ (fun call _ s t run => roundCall_brings
  (fun out => (implementGenTraversal_brings out).1) implementCloseBraceGen_brings call run) order
 have behind : Brings g w (w.put ([.text "\n"] ++ rootFunction g ++ [.text "\n\x7b\n", indent 1,
  .text "return &", .global g.astRoot g.rootVariableName, .text ";\n\x7d\n"])) [] :=
  brings_put rfl
 have whole := (((before.trans first).trans second).trans third).trans behind
 rwa [List.nil_append, List.append_nil] at whole

end state

/-- The numeral of an item that is put after `std::hex` or before it has its value. -/
def Item.Reads (h : AstHeap) (hex : Bool) (value : ℕ) : Item → Prop
 | .literal => True
 | .streamed count =>
  readDecimal (Nat.toDigits (if hex then 16 else 10) value) = some (trueCount h count)
 | .written count => readDecimal (Nat.toDigits 10 value) = some (trueCount h count)

def behindLiteral (front : List (Item × ℕ)) : Bool := front.any fun mark => mark.1 = .literal

theorem hexAfter_marks (hex : Bool) (file : List Insert) :
 hexAfter hex file = (hex || behindLiteral (marks file)) := by
 have any : file.any Insert.setsHex = behindLiteral (marks file) := by
  induction file with
  | nil => rfl
  | cons insert file ih =>
   rw [List.any_cons, ih]
   cases insert <;> rfl
 rw [hexAfter, any]

theorem countsDenote_iff {h : AstHeap} {hex : Bool} {file : List Insert} :
 CountsDenote h hex file ↔ ∀ (front back : List (Item × ℕ)) (item : Item) (value : ℕ),
  marks file = front ++ (item, value) :: back →
   item.Reads h (hex || behindLiteral front) value := by
 constructor
 · intro denote front back item value split
   obtain ⟨before, rest, rfl, first, second⟩ := List.filterMap_eq_append_iff.mp split
   obtain ⟨gap, insert, behind, rfl, unmarked, mark, -⟩ := List.filterMap_eq_cons_iff.mp second
   have flag : hexAfter hex (before ++ gap) = (hex || behindLiteral front) := by
    have none' : marks gap = [] := List.filterMap_eq_nil_iff.mpr unmarked
    rw [hexAfter_marks, marks_append, none', List.append_nil]
    exact congrArg (fun front => hex || behindLiteral front) first
   have here := denote (before ++ gap) behind insert (List.append_assoc ..).symm
   rw [flag] at here
   cases insert with
   | number count n | decimal count n =>
    cases mark
    exact here count rfl
   | literal n =>
    cases mark
    trivial
   | text | name | tag | global => cases mark
 · intro reads front back insert split count counted
   have flag := hexAfter_marks hex front
   cases insert with
   | number c n =>
    cases counted
    have here := reads (marks front) (marks back) (.streamed count) n (by
     rw [split, marks_append]
     rfl)
    rw [← flag] at here
    exact here
   | decimal c n =>
    cases counted
    exact reads (marks front) (marks back) (.written count) n (by
     rw [split, marks_append]
     rfl)
   | literal | text | name | tag | global => cases counted

section reading
variable {h : AstHeap}

theorem shownCount_le (counted : Counted h) (instanced : Instanced h) {count : Count}
 (stands : count.Stands h) :
 (shownCount h count = trueCount h count ↔ count.Fits h) ∧
  (shownCount h count ≤ trueCount h count ∨ trueCount h count = 0) := by
 cases count with
 | elements array =>
  obtain ⟨isArray, placed⟩ := stands
  have counts := counted.counts array placed
  have size : shownCount h (.elements array) = (h.get array).arraySize.toNat % 2 ^ 16 :=
   UInt32.toNat_toUInt16 _
  refine ⟨?_, ?_⟩
  · rw [size]
    exact counts.field_iff isArray
  · rcases counts isArray with none' | exact'
    · refine .inr ?_
      rw [trueCount, none']
      rfl
    · refine .inl ?_
      rw [size, exact', UInt32.toNat_ofNat']
      exact (Nat.mod_le _ _).trans (Nat.mod_le _ _)
 | instances template =>
  have size : shownCount h (.instances template) =
   (h.get template).subClasses.length % 2 ^ 32 := by
   rw [shownCount, instanced.count, UInt32.toNat_ofNat']
  rw [size]
  refine ⟨⟨fun same => ?_, fun fits => Nat.mod_eq_of_lt fits⟩, .inl (Nat.mod_le _ _)⟩
  change (h.get template).subClasses.length < 2 ^ 32
  rw [trueCount] at same
  rw [← same]
  exact Nat.mod_lt _ (by decide)
 | index template place =>
  have found : (h.get template).subClasses[place]? =
   some ((h.get template).subClasses.getD place 0) := by
   rw [List.getD_eq_getElem?_getD, List.getElem?_eq_getElem stands]
   rfl
  have size : shownCount h (.index template place) = place % 2 ^ 32 := by
   rw [shownCount, instanced.index template place _ found, UInt32.toNat_ofNat']
  rw [size]
  refine ⟨⟨fun same => ?_, fun fits => Nat.mod_eq_of_lt fits⟩, .inl (Nat.mod_le _ _)⟩
  change place < 2 ^ 32
  rw [trueCount] at same
  rw [← same]
  exact Nat.mod_lt _ (by decide)

theorem streamed_reads_iff (counted : Counted h) (instanced : Instanced h) {count : Count}
 (stands : count.Stands h) (hex : Bool) :
 (Item.streamed count).Reads h hex (shownCount h count) ↔
  count.Fits h ∧ (hex = true → trueCount h count < 10) := by
 obtain ⟨fits, small⟩ := shownCount_le counted instanced stands
 cases hex with
 | false =>
  rw [Item.Reads, if_neg Bool.false_ne_true, readDecimal_toDigits, Option.some.injEq, fits]
  exact (and_iff_left fun same => absurd same Bool.false_ne_true).symm
 | true =>
  rw [Item.Reads, if_pos rfl]
  constructor
  · intro read
    obtain ⟨le, digit, positive⟩ := readDecimal_hex read
    have same : shownCount h count = trueCount h count := by
     rcases small with small | nothing
     · exact small.antisymm le
     · rw [nothing] at positive ⊢
       by_contra some'
       exact Nat.lt_irrefl 0 (positive (Nat.pos_of_ne_zero some'))
    rw [same] at digit
    exact ⟨fits.mp same, fun _ => digit.resolve_right (Nat.lt_irrefl _)⟩
  · rintro ⟨fit, digit⟩
    have same := fits.mpr fit
    rw [same]
    exact readDecimal_small (digit rfl)

theorem written_reads_iff (counted : Counted h) (instanced : Instanced h) {count : Count}
 (stands : count.Stands h) (hex : Bool) :
 (Item.written count).Reads h hex (shownCount h count) ↔ count.Fits h := by
 rw [Item.Reads, readDecimal_toDigits, Option.some.injEq]
 exact (shownCount_le counted instanced stands).1

theorem items_denote_iff (counted : Counted h) (instanced : Instanced h) {items : List Item}
 (stands : ∀ item ∈ items, ∀ count ∈ item.count, count.Stands h) {file : List Insert}
 (brings : marks file = items.map (Item.mark h)) :
 CountsDenote h false file ↔ (∀ item ∈ items, ∀ count ∈ item.count, count.Fits h) ∧
  ∀ (front back : List Item) (count : Count), items = front ++ .streamed count :: back →
   .literal ∈ front → trueCount h count < 10 := by
 have literal : ∀ front : List Item,
  behindLiteral (front.map (Item.mark h)) = true ↔ .literal ∈ front := by
  intro front
  rw [behindLiteral, List.any_map, List.any_eq_true]
  constructor
  · rintro ⟨item, mem, same⟩
    obtain rfl := of_decide_eq_true same
    exact mem
  · exact fun mem => ⟨.literal, mem, rfl⟩
 rw [countsDenote_iff, brings]
 constructor
 · intro reads
   have at' : ∀ (front back : List Item) (item : Item), items = front ++ item :: back →
    item.Reads h (behindLiteral (front.map (Item.mark h))) (item.mark h).2 := by
    intro front back item split
    have here := reads (front.map (Item.mark h)) (back.map (Item.mark h)) item (item.mark h).2 (by
     rw [split, List.map_append]
     rfl)
    rwa [Bool.false_or] at here
   refine ⟨fun item mem count counts => ?_, fun front back count split behind => ?_⟩
   · obtain ⟨front, back, split⟩ := List.append_of_mem mem
     have here := at' front back item split
     have standing := stands item mem count counts
     cases item with
     | literal => cases counts
     | streamed c =>
      cases counts
      exact ((streamed_reads_iff counted instanced standing _).mp here).1
     | written c =>
      cases counts
      exact (written_reads_iff counted instanced standing _).mp here
   · have here := at' front back _ split
     have standing := stands (.streamed count) (by rw [split]; simp) count rfl
     exact ((streamed_reads_iff counted instanced standing _).mp here).2 ((literal front).mpr behind)
 · rintro ⟨fits, small⟩ front back item value split
   obtain ⟨before, rest, rfl, first, second⟩ := List.map_eq_append_iff.mp split
   obtain ⟨item', behind, rfl, mark, -⟩ := List.map_eq_cons_iff.mp second
   cases mark
   rw [Bool.false_or, ← first]
   have mem : item ∈ before ++ item :: behind := by simp
   cases item with
   | literal => trivial
   | streamed count =>
    refine (streamed_reads_iff counted instanced (stands _ mem count rfl) _).mpr
     ⟨fits _ mem count rfl, fun hex => ?_⟩
    exact small before behind count rfl ((literal before).mp hex)
   | written count =>
    exact (written_reads_iff counted instanced (stands _ mem count rfl) _).mpr
     (fits _ mem count rfl)

end reading

section standing
variable {g : TextGen} (linked : Linked g.h)
include linked

theorem array_stands {value : ℕ} (child : g.h.child term = some value)
 (array : (g.h.get value).type = .array) : (Count.elements value).Stands g.h := by
 refine ⟨array, ?_⟩
 rw [linked.parent (child_mem child)]
 exact Option.some_ne_none term

theorem arrayOf_stands {array : ℕ} (found : array ∈ g.arrayOf term) :
 (Count.elements array).Stands g.h := by
 obtain ⟨child, kind⟩ := Option.filter_eq_some_iff.mp found
 exact array_stands linked child (of_decide_eq_true kind)

variable {item : Item}

theorem definitionItems_stand (mem : item ∈ definitionItems g object) :
 item ≠ .literal ∧ ∀ count ∈ item.count, count.Stands g.h := by
 unfold definitionItems at mem
 dsimp only at mem
 split at mem
 · obtain ⟨array, found, rfl⟩ := List.mem_map.mp mem
   refine ⟨Item.noConfusion, ?_⟩
   rintro count ⟨⟩
   exact arrayOf_stands linked (Option.mem_toList.mp found)
 · cases mem

theorem headerItems_stand {item : Item} : ∀ {objects : List ℕ} {symbolSet : List Str},
 item ∈ headerItems g symbolSet objects →
  item ≠ .literal ∧ ∀ count ∈ item.count, count.Stands g.h
 | [], _, mem => by cases mem
 | object :: objects, symbolSet, mem => by
  rw [headerItems] at mem
  dsimp only at mem
  split at mem
  · split at mem
    · exact headerItems_stand mem
    · rcases List.mem_append.mp mem with mem | mem
      · obtain ⟨child, -, mem⟩ := List.mem_flatMap.mp mem
        exact definitionItems_stand linked mem
      · exact headerItems_stand mem
  · exact headerItems_stand mem

omit linked in
theorem elementItems_stand {array : ℕ} (mem : item ∈ elementItems g array) : item = .literal := by
 obtain ⟨element, -, mem⟩ := List.mem_flatMap.mp mem
 unfold valueItems at mem
 split at mem
 · exact List.mem_singleton.mp mem
 · cases mem

theorem declaredItems_stand (mem : item ∈ declaredItems g object) :
 ∀ count ∈ item.count, count.Stands g.h := by
 unfold declaredItems at mem
 split at mem
 · obtain ⟨array, found, mem⟩ := List.mem_flatMap.mp mem
   rcases List.mem_cons.mp mem with rfl | mem
   · rintro count ⟨⟩
     exact arrayOf_stands linked (Option.mem_toList.mp found)
   · rw [elementItems_stand mem]
     nofun
 · cases mem

theorem shownItems_stand (mem : item ∈ shownItems g object) :
 ∀ count ∈ item.count, count.Stands g.h := by
 unfold shownItems at mem
 dsimp only at mem
 split at mem
 · split at mem
   · rw [List.mem_singleton.mp mem]
     rintro count ⟨⟩
     trivial
   · cases mem
 · split at mem
   · split at mem
     · cases mem
     · next value child =>
       split at mem
       · next array =>
         split at mem
         · rw [List.mem_singleton.mp mem]
           rintro count ⟨⟩
           exact array_stands linked child array
         · rw [elementItems_stand mem]
           nofun
       · unfold valueItems at mem
         split at mem
         · rw [List.mem_singleton.mp mem]
           nofun
         · cases mem
   · cases mem

omit linked in
theorem callItems_stand {items : ℕ → List Item} {calls : List (Bool × ℕ × ℕ)}
 (all : ∀ object, ∀ item ∈ items object, ∀ count ∈ item.count, count.Stands g.h)
 (mem : item ∈ calls.flatMap (callItems items)) : ∀ count ∈ item.count, count.Stands g.h := by
 obtain ⟨call, -, mem⟩ := List.mem_flatMap.mp mem
 unfold callItems at mem
 split at mem
 · exact all _ item mem
 · cases mem

theorem templateItems_stand (mem : item ∈ templateItems g object) :
 ∀ count ∈ item.count, count.Stands g.h := by
 unfold templateItems at mem
 dsimp only at mem
 split at mem
 · obtain ⟨subClass, place, mem⟩ := List.mem_flatMap.mp mem
   rcases List.mem_cons.mp mem with rfl | mem
   · rintro count ⟨⟩
     exact (List.mem_zipIdx' place).1
   · obtain ⟨child, -, mem⟩ := List.mem_flatMap.mp mem
     exact callItems_stand (fun _ _ mem => shownItems_stand linked mem) mem
 · cases mem

theorem implItems_stand (mem : item ∈ g.implItems) : ∀ count ∈ item.count, count.Stands g.h := by
 rcases List.mem_append.mp mem with mem | mem
 · rcases List.mem_append.mp mem with mem | mem
   · obtain ⟨object, -, mem⟩ := List.mem_flatMap.mp mem
     exact declaredItems_stand linked mem
   · obtain ⟨object, -, mem⟩ := List.mem_flatMap.mp mem
     exact templateItems_stand linked mem
 · refine callItems_stand (fun object item mem => ?_) mem
   unfold rootItems at mem
   dsimp only at mem
   split at mem
   · cases mem
   · exact shownItems_stand linked mem

end standing

theorem linked_within {g : TextGen} (linked : Linked g.h) (object : ℕ) :
 Within g.children g.levels object :=
 within_of_increasing (fun _ _ => linked.older) (fun _ _ => linked.lt_size) g.h.size object
  (Nat.le_add_left _ _)

theorem initialize_heap {option : TextOption} {alive : ℕ → Bool} {ast : Ast} {g : TextGen}
 (run : TextGen.initialize option alive ast = .ok g) : g.h = ast.heap := by
 unfold TextGen.initialize at run
 split at run
 · cases run
 · split at run
   · cases run
   · cases run
     rfl

/-- The counts in the files that are made from a tree are right exactly if they can be read:
`std::hex` is never taken back. -/
theorem counts_denote_iff {parseOne : Str → Option SourceFile} {fuel : ℕ} {sourceName : Str}
    {ast : Ast} (parsed : parse parseOne fuel sourceName = .ok ast) {option : TextOption}
    {alive : ℕ → Bool} {rounds : ℕ} {files : TextFiles} {g : TextGen}
    (start : TextGen.initialize option alive ast = .ok g)
    (output : textOutput option alive rounds ast = .ok files) :
    files.CountsDenote ast.heap ↔ g.CountsReadable := by
  have counted := (parse_counted parsed).1
  have instanced := parse_instanced parsed
  rw [← initialize_heap start] at counted instanced ⊢
  have linked := counted.linked
  rw [textOutput, start] at output
  obtain ⟨_, same, output⟩ := bind_ok_iff.mp output
  cases same
  obtain ⟨-, -, output⟩ := bind_ok_iff.mp output
  obtain ⟨header, headerRun, output⟩ := bind_ok_iff.mp output
  obtain ⟨impl, implRun, last⟩ := bind_ok_iff.mp output
  cases last
  have headerMarks : marks header.out = g.headerItems.map (Item.mark g.h) :=
    headerOutput_brings (linked_within linked g.astRoot) rfl headerRun
  have implMarks : marks impl.out = g.implItems.map (Item.mark g.h) :=
    implOutput_brings (linked_within linked) implRun
  have plain : Item.literal ∉ g.headerItems := fun mem => (headerItems_stand linked mem).1 rfl
  -- no number of the configuration is in the header
  have flag : hexAfter false header.out = false := by
    rw [hexAfter_marks, headerMarks, Bool.false_or, behindLiteral, List.any_map, List.any_eq_false]
    intro item mem literal
    rw [show item = .literal from of_decide_eq_true literal] at mem
    exact plain mem
  unfold TextFiles.CountsDenote
  rw [flag, items_denote_iff counted instanced (fun _ mem => (headerItems_stand linked mem).2)
      headerMarks, items_denote_iff counted instanced (fun _ mem => implItems_stand linked mem)
      implMarks]
  constructor
  · rintro ⟨⟨headerFits, -⟩, implFits, small⟩
    refine ⟨fun item mem => ?_, small⟩
    rcases List.mem_append.mp mem with mem | mem
    · exact headerFits item mem
    · exact implFits item mem
  · rintro ⟨fits, small⟩
    refine ⟨⟨fun item mem => fits item (List.mem_append_left _ mem), ?_⟩,
      fun item mem => fits item (List.mem_append_right _ mem), small⟩
    intro front back count split literal
    refine absurd ?_ plain
    rw [TextGen.headerItems, split]
    exact List.mem_append_left _ literal

/-- `root { module = "m"; template t { a = [1]; } x :: t { } y :: t { a = elements; } }` -/
def twoInstances (elements : List UInt64) : SourceObjects :=
 .term Ast.moduleName (.string [0x6D]) <|
  .node [0x74] .template [] (.term [0x61] (.numberArray [1]) .nil) <|
   .node [0x78] .inherit [0x74] .nil <|
    .node [0x79] .inherit [0x74] (.term [0x61] (.numberArray elements) .nil) .nil

def sampleOption : TextOption := ⟨[], [0x6D]⟩

instance (h : AstHeap) : (count : Count) → Decidable (count.Fits h)
 | .elements _ => inferInstanceAs (Decidable (_ < _ ∧ (_ → _)))
 | .instances _ => inferInstanceAs (Decidable (_ < _))
 | .index _ _ => inferInstanceAs (Decidable (_ < _))

theorem TextGen.CountsReadable.of_digits {g : TextGen}
 (digits : ∀ item ∈ g.headerItems ++ g.implItems, ∀ count ∈ item.count,
  count.Fits g.h ∧ trueCount g.h count < 10) : g.CountsReadable where
 fits item mem count counted := (digits item mem count counted).1
 small front back count split _ := by
  have mem : Item.streamed count ∈ g.implItems := by
   rw [split]
   exact List.mem_append_right _ List.mem_cons_self
  exact (digits _ (List.mem_append_right _ mem) count rfl).2

theorem counts_denote_two : ∃ ast g files,
    parse (fun _ => some ⟨[], some (twoInstances [1, 2])⟩) 30 [0x6D] = .ok ast ∧
      TextGen.initialize sampleOption (fun _ => true) ast = .ok g ∧
      textOutput sampleOption (fun _ => true) 30 ast = .ok files ∧
      files.CountsDenote ast.heap := by
  have facts : (parse (fun _ => some ⟨[], some (twoInstances [1, 2])⟩) 30 [0x6D]).toOption.any
      (fun ast => (textOutput sampleOption (fun _ => true) 30 ast).toOption.isSome &&
        ( TextGen.initialize sampleOption (fun _ => true) ast).toOption.any fun g =>
          decide (∀ item ∈ g.headerItems ++ g.implItems, ∀ count ∈ item.count,
            count.Fits g.h ∧ trueCount g.h count < 10)) = true := by
    decide +kernel
  cases parsed : parse (fun _ => some ⟨[], some (twoInstances [1, 2])⟩) 30 [0x6D] with
  | error e =>
    rw [parsed] at facts
    cases facts
  | ok ast =>
    rw [parsed] at facts
    obtain ⟨written, digits⟩ := (Bool.and_eq_true _ _).mp facts
    cases output : textOutput sampleOption (fun _ => true) 30 ast with
    | error e =>
      rw [output] at written
      cases written
    | ok files =>
      cases start : TextGen.initialize sampleOption (fun _ => true) ast with
      | error e =>
        rw [start] at digits
        cases digits
      | ok g =>
        rw [start] at digits
        refine ⟨ast, g, files, rfl, start, output, ?_⟩
        exact (counts_denote_iff parsed start output).mpr (.of_digits (of_decide_eq_true digits))

/-- The ten elements of the array of `y` are behind the one of `x`, and their number is put as
`a`. -/
theorem ten_elements_put_in_hex : ¬ ∀ (parseOne : Str → Option SourceFile) (fuel rounds : ℕ)
    (sourceName : Str) (ast : Ast) (option : TextOption) (alive : ℕ → Bool) (files : TextFiles),
    parse parseOne fuel sourceName = .ok ast →
    textOutput option alive rounds ast = .ok files → files.CountsDenote ast.heap := by
  intro hall
  have facts : (parse (fun _ => some ⟨[], some (twoInstances (List.replicate 10 1))⟩) 30
      [0x6D]).toOption.any (fun ast =>
        (textOutput sampleOption (fun _ => true) 30 ast).toOption.any fun files =>
          decide (files.impl = files.impl.take 24 ++ .number (.elements 10) 10 ::
              files.impl.drop 25 ∧
            hexAfter (hexAfter false files.header) (files.impl.take 24) = true ∧
            trueCount ast.heap (.elements 10) = 10)) = true := by
    decide +kernel
  cases parsed : parse (fun _ => some ⟨[], some (twoInstances (List.replicate 10 1))⟩) 30
      [0x6D] with
  | error e =>
    rw [parsed] at facts
    cases facts
  | ok ast =>
    rw [parsed] at facts
    change (textOutput sampleOption (fun _ => true) 30 ast).toOption.any _ = true at facts
    cases output : textOutput sampleOption (fun _ => true) 30 ast with
    | error e =>
      rw [output] at facts
      cases facts
    | ok files =>
      rw [output] at facts
      obtain ⟨split, hex, ten⟩ := of_decide_eq_true facts
      have denotes := (hall _ _ _ _ ast _ _ files parsed output).2 _ _ _ split (.elements 10) rfl
      rw [hex, ten] at denotes
      exact absurd denotes (by decide)

end DriversFramework.HcAst
