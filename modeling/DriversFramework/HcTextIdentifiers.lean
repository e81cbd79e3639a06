import DriversFramework.HcTextNames
import Mathlib.Data.List.Pairwise

namespace DriversFramework.HcAst

open AstHeap TreeWalks FirstNumbers Numerals

section identifiers
variable (g : TextGen)

def TextGen.HasStruct (node : ℕ) : Prop :=
 node ∈ postorder g.children g.levels g.astRoot ∧ (g.h.get node).isNode = true ∧
  (g.h.get node).nodeType ≠ .inherit

/-- What stands in the files under an identifier is what was named. -/
structure TextFiles.Distinct (files : TextFiles) : Prop where
 /-- Nodes of one name have one structure: those in an instance have that of the template. -/
 structs : ∀ node other, g.HasStruct node → g.HasStruct other →
  .tag other (genConfigStructName g node) ∈ files.header →
   (g.h.get other).name = (g.h.get node).name
 globals : ∀ x y name, .global x name ∈ files.impl → .global y name ∈ files.impl → x = y

def TextGen.number (e : Naming) : ℕ := FirstNumbers.number g.key g.namings e

/-- The name of `e` is that of `e'` and a part of its number, and its number is the rest. -/
def TextGen.RunsInto (e e' : Naming) : Prop :=
 ∃ digits, g.base e = g.base e' ++ digits ∧
  e'.numeral (g.number e') = digits ++ e.numeral (g.number e)

/-- No two names come to one identifier. -/
structure TextGen.NamesApart : Prop where
 structs : ∀ node other, g.HasStruct node → g.HasStruct other →
  toUpperCamelString (g.h.get other).name = toUpperCamelString (g.h.get node).name →
   (g.h.get other).name = (g.h.get node).name
 /-- The first template of a name, which has no number, is not called like the root. -/
 root : ∀ node, .template node ∈ g.namings → (g.h.get node).inheritCount ≠ 0 →
  node ≠ g.astRoot → g.number (.template node) = 1 →
   toUpperCamelString (g.h.get node).name ≠ g.moduleName ++ moduleRootName
 /-- No name runs into the number of another one. -/
 numbers : ∀ e ∈ g.namings, ∀ e' ∈ g.namings, g.Shown e → g.Shown e' → g.key e ≠ g.key e' →
  ¬g.RunsInto e e'

end identifiers

section header
variable {g : TextGen} {s t : TextState}

def Insert.tagged : Insert → Option (ℕ × Str)
 | .tag node s => some (node, s)
 | _ => none

def tags (file : List Insert) : List (ℕ × Str) := file.filterMap Insert.tagged

theorem tags_append (front back : List Insert) : tags (front ++ back) = tags front ++ tags back :=
 List.filterMap_append

def nodeTags (g : TextGen) (nodes : List ℕ) : List (ℕ × Str) :=
 nodes.map fun node => (node, genConfigStructName g node)

def PutsTags (g : TextGen) (s t : TextState) (nodes : List ℕ) : Prop :=
 ∃ inserts, t = s.put inserts ∧ tags inserts = nodeTags g nodes

theorem put_nil : s = s.put [] := by
 rw [TextState.put, List.append_nil]

theorem PutsTags.trans {u : TextState} {nodes more : List ℕ} (first : PutsTags g s t nodes)
  (second : PutsTags g t u more) : PutsTags g s u (nodes ++ more) := by
 obtain ⟨front, rfl, own⟩ := first
 obtain ⟨back, rfl, own'⟩ := second
 refine ⟨front ++ back, ?_, ?_⟩
 · rw [TextState.put, TextState.put, TextState.put, List.append_assoc]
 · rw [tags_append, own, own', nodeTags, nodeTags, nodeTags, List.map_append]

theorem genObjectDefinitionGen_puts {object : ℕ}
  (run : genObjectDefinitionGen g s object = .ok t) : ∃ nodes, PutsTags g s t nodes := by
 unfold genObjectDefinitionGen genTermDefinition at run
 dsimp only at run
 repeat' split at run
 all_goals cases run
 all_goals
  first
  | exact ⟨[], [], put_nil, rfl⟩
  | exact ⟨[], _, rfl, rfl⟩
  | exact ⟨[object], _, rfl, rfl⟩
  | exact ⟨[_], _, rfl, rfl⟩

theorem members_put {members : List ℕ} : ∀ {s : TextState},
  members.foldlM (genObjectDefinitionGen g) s = .ok t → ∃ nodes, PutsTags g s t nodes := by
 induction members with
 | nil =>
  intro s run
  cases run
  exact ⟨[], [], put_nil, rfl⟩
 | cons object members ih =>
  intro s run
  rw [List.foldlM_cons, bind_ok_iff] at run
  obtain ⟨u, call, run⟩ := run
  obtain ⟨nodes, first⟩ := genObjectDefinitionGen_puts call
  obtain ⟨more, rest⟩ := ih run
  exact ⟨nodes ++ more, first.trans rest⟩

structure Defined (g : TextGen) (objects : List ℕ) (s t : TextState) : Prop where
 numbers : t.sigNum = s.sigNum ∧ t.templateSignNum = s.templateSignNum
 kept : ∀ tag ∈ tags s.out, tag ∈ tags t.out
 own : ∀ tag ∈ tags t.out, tag ∈ tags s.out ∨ tag.2 = genConfigStructName g tag.1
 seen : ∀ name ∈ s.symbolSet, name ∈ t.symbolSet
 named : ∀ node ∈ objects, (g.h.get node).isNode = true ∧ (g.h.get node).nodeType ≠ .inherit →
  genConfigStructName g node ∈ t.symbolSet
 defined : ∀ name ∈ t.symbolSet, name ∈ s.symbolSet ∨ ∃ node ∈ objects,
  ((g.h.get node).isNode = true ∧ (g.h.get node).nodeType ≠ .inherit) ∧
   (node, name) ∈ tags t.out

theorem defined_refl : Defined g [] s s where
 numbers := ⟨rfl, rfl⟩
 kept _ mem := mem
 own _ mem := .inl mem
 seen _ mem := mem
 named _ mem := by cases mem
 defined _ mem := .inl mem

theorem Defined.append {u : TextState} {objects more : List ℕ} (first : Defined g objects s t)
  (second : Defined g more t u) : Defined g (objects ++ more) s u where
 numbers := ⟨second.numbers.1.trans first.numbers.1, second.numbers.2.trans first.numbers.2⟩
 kept tag mem := second.kept tag (first.kept tag mem)
 own tag mem := (second.own tag mem).elim (first.own tag) .inr
 seen name mem := second.seen name (first.seen name mem)
 named node mem structured := by
  rcases List.mem_append.mp mem with mem | mem
  · exact second.seen _ (first.named node mem structured)
  · exact second.named node mem structured
 defined name mem := by
  rcases second.defined name mem with mem | ⟨node, mem, structured, tag⟩
  · rcases first.defined name mem with mem | ⟨node, mem, structured, tag⟩
    · exact .inl mem
    · exact .inr ⟨node, List.mem_append_left _ mem, structured, second.kept _ tag⟩
  · exact .inr ⟨node, List.mem_append_right _ mem, structured, tag⟩

theorem PutsTags.defined {nodes : List ℕ} (puts : PutsTags g s t nodes) : Defined g [] s t := by
 obtain ⟨inserts, rfl, own⟩ := puts
 have out : tags (s.put inserts).out = tags s.out ++ nodeTags g nodes := by
  rw [← own, ← tags_append]
  rfl
 refine ⟨⟨rfl, rfl⟩, fun tag mem => ?_, fun tag mem => ?_, fun _ mem => mem, fun _ mem => ?_,
  fun _ mem => .inl mem⟩
 · rw [out]
   exact List.mem_append_left _ mem
 · rw [out] at mem
   refine (List.mem_append.mp mem).imp_right fun mem => ?_
   obtain ⟨node, -, rfl⟩ := List.mem_map.mp mem
   rfl
 · cases mem

theorem headerAt_defined {object : ℕ} (run : headerAt g s object = .ok t) :
  Defined g [object] s t := by
 unfold headerAt at run
 split at run
 · next structured =>
   unfold genNodeDefinition at run
   dsimp only at run
   split at run
   · next old =>
     cases run
     refine { defined_refl with named := fun node mem _ => ?_, defined := fun _ mem => .inl mem }
     rw [List.mem_singleton.mp mem]
     exact List.contains_iff_mem.mp old
   · next new =>
     obtain ⟨u, members, last⟩ := bind_ok_iff.mp run
     cases last
     obtain ⟨nodes, puts⟩ := members_put members
     let start : TextState := { s with symbolSet := genConfigStructName g object :: s.symbolSet }
     have before : PutsTags g start (start.put [.text "struct ", g.structTag object,
       .text " \x7b\n"]) [object] := ⟨_, rfl, rfl⟩
     have behind : PutsTags g u (u.put [.text "\x7d;\n\n"]) [] := ⟨_, rfl, rfl⟩
     obtain ⟨inserts, same, own⟩ := (before.trans puts).trans behind
     have here : (object, genConfigStructName g object) ∈ tags inserts := by
      rw [own]
      exact List.mem_map.mpr ⟨object, List.mem_cons_self, rfl⟩
     rw [same]
     have whole : Defined g [] start (start.put inserts) := PutsTags.defined ⟨inserts, rfl, own⟩
     have there : (object, genConfigStructName g object) ∈ tags (start.put inserts).out := by
      change _ ∈ tags (s.out ++ inserts)
      rw [tags_append]
      exact List.mem_append_right _ here
     refine ⟨⟨rfl, rfl⟩, whole.kept, whole.own, fun name mem => List.mem_cons_of_mem _ mem,
      fun node mem _ => ?_, fun name mem => ?_⟩
     · rw [List.mem_singleton.mp mem]
       exact List.mem_cons_self
     · rcases List.mem_cons.mp mem with rfl | mem
       · exact .inr ⟨object, List.mem_cons_self, structured, there⟩
       · exact .inl mem
 · next other =>
   cases run
   refine { defined_refl with named := fun node mem structured => ?_, defined := fun _ mem => .inl mem }
   rw [List.mem_singleton.mp mem] at structured
   exact absurd structured other

theorem header_defined {objects : List ℕ} : ∀ {s : TextState},
  objects.foldlM (headerAt g) s = .ok t → Defined g objects s t := by
 induction objects with
 | nil =>
  intro s run
  cases run
  exact defined_refl
 | cons object objects ih =>
  intro s run
  rw [List.foldlM_cons, bind_ok_iff] at run
  obtain ⟨u, call, run⟩ := run
  exact (headerAt_defined call).append (ih run)

theorem headerOutput_defined {rounds : ℕ} (within : Within g.children g.levels g.astRoot)
  (run : headerOutput g rounds s = .ok t) :
  Defined g (postorder g.children g.levels g.astRoot) s t := by
 unfold headerOutput at run
 dsimp only at run
 obtain ⟨u, walk, last⟩ := bind_ok_iff.mp run
 cases last
 have before : PutsTags g s (s.put [fileHeadComment, .text "#ifndef ", headerProtectMacro g,
   .text "\n", .text "#define ", headerProtectMacro g, .text "\n\n",
   .text "#include <stdint.h>\n\n"]) [] := ⟨_, rfl, rfl⟩
 have declared : PutsTags g u (u.put (rootFunction g ++ [.text ";\n"])) [] := ⟨_, rfl, rfl⟩
 have behind : PutsTags g u ((u.put (rootFunction g ++ [.text ";\n"])).put
   [.text "\n#endif // ", headerProtectMacro g, .text "\n"]) [] :=
  declared.trans ⟨_, rfl, rfl⟩
 have whole := (before.defined.append (header_defined (walkBackward_order within walk))).append
  behind.defined
 rwa [List.nil_append, List.append_nil] at whole

end header

def TextGen.Outside (g : TextGen) (object : ℕ) : Prop :=
 (g.h.get object).isNode = true ∧ isInSubClassNode g.h object = false

def TextGen.NamesDiffer (g : TextGen) (a b : ℕ) : Prop :=
 g.Outside a → g.Outside b → (g.h.get a).name ≠ (g.h.get b).name

instance (g : TextGen) : Std.Symm g.NamesDiffer where
 symm _ _ differ outside outside' := (differ outside' outside).symm

theorem toNat_le_of_mem {n : ℕ} {c : Char} (mem : c ∈ Nat.toDigits 10 n) : c.toNat ≤ 57 :=
 (Char.isDigit_iff_toNat.mp (Nat.isDigit_of_mem_toDigits (by decide) (by decide) mem)).2

theorem strChars_toStr (n : ℕ) : strChars (toStr n) = Nat.toDigits 10 n := by
 rw [strChars, toStr, List.map_map]
 refine (List.map_congr_left fun c mem => ?_).trans (List.map_id _)
 have digit := toNat_le_of_mem mem
 change Char.ofNat (UInt8.ofNat c.toNat).toNat = c
 rw [UInt8.toNat_ofNat', Nat.mod_eq_of_lt (by omega), Char.ofNat_toNat]

theorem toStr_inj {m n : ℕ} (same : toStr m = toStr n) : m = n := by
 have digits := congrArg strChars same
 rw [strChars_toStr, strChars_toStr] at digits
 have read := congrArg readDecimal digits
 rw [readDecimal_toDigits, readDecimal_toDigits] at read
 exact Option.some.inj read

theorem toStr_ne_nil (n : ℕ) : toStr n ≠ [] := by
 intro empty
 have digits := strChars_toStr n
 rw [empty] at digits
 exact Nat.toDigits_ne_nil digits.symm

theorem append_toStr_ne (front back : Str) (n : ℕ) :
  front ++ toStr n ≠ back ++ moduleRootName := by
 intro same
 have last := congrArg List.getLast? same
 rw [List.getLast?_append_of_ne_nil _ (toStr_ne_nil n),
  List.getLast?_append_of_ne_nil _ (by decide)] at last
 have mem : (0x74 : UInt8) ∈ toStr n := List.mem_of_getLast? last
 rw [toStr] at mem
 obtain ⟨c, mem, same⟩ := List.mem_map.mp mem
 have digit := toNat_le_of_mem mem
 have value := congrArg UInt8.toNat same
 rw [UInt8.toNat_ofNat', Nat.mod_eq_of_lt (by omega)] at value
 change c.toNat = 0x74 at value
 omega

theorem signNum_eq_zero_iff {n : ℕ} (pos : 0 < n) : signNum n = 0 ↔ n = 1 := by
 rw [signNum]
 split <;> omega

theorem numeral_inj (e : Naming) {m n : ℕ} (pos : 0 < m) (pos' : 0 < n)
  (same : e.numeral m = e.numeral n) : m = n := by
 cases e with
 | array term => exact toStr_inj same
 | template node =>
  have first := signNum_eq_zero_iff pos
  have second := signNum_eq_zero_iff pos'
  rw [Naming.numeral, Naming.numeral] at same
  split at same
  · split at same
    · have numbers := toStr_inj same
      unfold signNum at numbers
      split at numbers <;> split at numbers <;> omega
    · exact absurd same (toStr_ne_nil _)
  · split at same
    · exact absurd same.symm (toStr_ne_nil _)
    · omega

section namings
variable {g : TextGen}

def TextGen.Fits (g : TextGen) : Naming → Prop
 | .array term => (g.h.get term).isTerm = true
 | .template node => (g.h.get node).isNode = true

variable {e : Naming}

theorem shownNamings_fits {object : ℕ} (mem : e ∈ shownNamings g object) : g.Fits e := by
 unfold shownNamings at mem
 dsimp only at mem
 split at mem
 · next node =>
   split at mem
   · obtain rfl := List.mem_singleton.mp mem
     exact node
   · cases mem
 · split at mem
   · next term =>
     obtain rfl := List.mem_singleton.mp mem
     exact term.1
   · cases mem

theorem callNamings_fits {namings : ℕ → List Naming}
  (all : ∀ object, ∀ e ∈ namings object, g.Fits e) {calls : List (Bool × ℕ × ℕ)}
  (mem : e ∈ calls.flatMap (callNamings namings)) : g.Fits e := by
 obtain ⟨call, -, mem⟩ := List.mem_flatMap.mp mem
 unfold callNamings at mem
 split at mem
 · exact all _ e mem
 · cases mem

theorem isTemplate_node {o : AstObject} (template : o.isTemplate = true) : o.isNode = true :=
 ((Bool.and_eq_true _ _).mp template).1

theorem namings_fits (mem : e ∈ g.namings) : g.Fits e := by
 rcases List.mem_append.mp mem with mem | mem
 · rcases List.mem_append.mp mem with mem | mem
   · obtain ⟨object, -, mem⟩ := List.mem_flatMap.mp mem
     unfold declaredNamings at mem
     dsimp only at mem
     split at mem
     · next term =>
       split at mem
       · obtain rfl := List.mem_singleton.mp mem
         exact term
       · cases mem
     · split at mem
       · next counted =>
         obtain rfl := List.mem_singleton.mp mem
         exact isTemplate_node counted.1
       · cases mem
   · obtain ⟨object, -, mem⟩ := List.mem_flatMap.mp mem
     unfold templateNamings at mem
     dsimp only at mem
     split at mem
     · next counted =>
       rcases List.mem_cons.mp mem with rfl | mem
       · exact isTemplate_node counted.1
       · obtain ⟨c, -, mem⟩ := List.mem_flatMap.mp mem
         obtain ⟨child, -, mem⟩ := List.mem_flatMap.mp mem
         exact callNamings_fits (fun _ _ mem => shownNamings_fits mem) mem
     · cases mem
 · refine callNamings_fits (fun object e mem => ?_) mem
   unfold rootNamings at mem
   dsimp only at mem
   split at mem
   · cases mem
   · exact shownNamings_fits mem

theorem object_inj {e' : Naming} (fits : g.Fits e) (fits' : g.Fits e')
  (same : e.object = e'.object) : e = e' := by
 have apart {term : ℕ} (isTerm : (g.h.get term).isTerm = true)
   (isNode : (g.h.get term).isNode = true) : False := by
  have kind := isNode_iff.mp isNode
  rw [isTerm_iff.mp isTerm] at kind
  cases kind
 cases e with
 | array term =>
  cases e' with
  | array term' => exact congrArg Naming.array same
  | template node =>
   obtain rfl : term = node := same
   exact (apart fits fits').elim
 | template node =>
  cases e' with
  | array term =>
   obtain rfl : node = term := same
   exact (apart fits' fits).elim
  | template node' => exact congrArg Naming.template same

theorem number_pos (mem : e ∈ g.namings) : 0 < g.number e :=
 Nat.pos_of_ne_zero fun none_ => number_eq_zero_iff.mp none_ mem

theorem identifier_eq_iff (e e' : Naming) :
  g.identifier g.namings e = g.identifier g.namings e' ↔ g.RunsInto e e' ∨ g.RunsInto e' e := by
 rw [TextGen.identifier, TextGen.identifier, List.append_eq_append_iff, Or.comm]
 rfl

theorem identifier_inj {e' : Naming} (mem : e ∈ g.namings) (mem' : e' ∈ g.namings)
  (key : g.key e = g.key e')
  (same : g.identifier g.namings e = g.identifier g.namings e') : e = e' := by
 refine number_inj mem mem' key ?_
 have pos := number_pos mem
 have pos' := number_pos mem'
 rw [TextGen.identifier, TextGen.identifier] at same
 cases e with
 | array term =>
  cases e' with
  | array term' =>
   rw [TextGen.base, TextGen.base, key] at same
   exact numeral_inj (.array term) pos pos' (List.append_cancel_left same)
  | template node => exact absurd key (key_array_ne g term node)
 | template node =>
  cases e' with
  | array term => exact absurd key.symm (key_array_ne g term node)
  | template node' =>
   rw [TextGen.base, TextGen.base, key] at same
   exact numeral_inj (.template node) pos pos' (List.append_cancel_left same)

theorem identifier_root_iff (root : g.rootVariableName =
   globalMark ++ g.namePrefix ++ g.moduleName ++ moduleRootName)
  (mem : e ∈ g.namings) : g.identifier g.namings e = g.rootVariableName ↔
   ∃ node, e = .template node ∧ g.number e = 1 ∧
    toUpperCamelString (g.h.get node).name = g.moduleName ++ moduleRootName := by
 have pos := number_pos mem
 rw [root, TextGen.identifier]
 cases e with
 | array term =>
  refine iff_of_false (append_toStr_ne _ _ _) ?_
  rintro ⟨node, same, -⟩
  exact array_ne_template term node same
 | template node =>
  change globalMark ++ g.namePrefix ++ toUpperCamelString (g.h.get node).name ++
   (if signNum (g.number (.template node)) ≠ 0 then
    toStr (signNum (g.number (.template node))) else []) = _ ↔ _
  by_cases first : g.number (.template node) = 1
  · rw [if_neg (not_not.mpr ((signNum_eq_zero_iff pos).mpr first)), List.append_nil,
     List.append_assoc _ g.moduleName, List.append_right_inj]
    refine ⟨fun same => ⟨node, rfl, first, same⟩, ?_⟩
    rintro ⟨node', same, -, name⟩
    rwa [Naming.template.inj same]
  · rw [if_pos ((signNum_eq_zero_iff pos).not.mpr first)]
    refine iff_of_false (append_toStr_ne _ _ _) ?_
    rintro ⟨-, -, one, -⟩
    exact first one

end namings

theorem mem_tags {file : List Insert} {node : ℕ} {name : Str} :
  (node, name) ∈ tags file ↔ .tag node name ∈ file := by
 rw [tags, List.mem_filterMap]
 constructor
 · rintro ⟨insert, mem, same⟩
   cases insert with
   | tag node' name' =>
    cases same
    exact mem
   | _ => cases same
 · exact fun mem => ⟨_, mem, rfl⟩

theorem mem_globals {file : List Insert} {object : ℕ} {name : Str} :
  (object, name) ∈ globals file ↔ .global object name ∈ file := by
 rw [globals, List.mem_filterMap]
 constructor
 · rintro ⟨insert, mem, same⟩
   cases insert with
   | global object' name' =>
    cases same
    exact mem
   | _ => cases same
 · exact fun mem => ⟨_, mem, rfl⟩

variable {g : TextGen}

theorem implOutput_root {rounds : ℕ} {s t : TextState}
  (run : implOutput g rounds s = .ok t) : .global g.astRoot g.rootVariableName ∈ t.out := by
 unfold implOutput at run
 dsimp only at run
 obtain ⟨u, -, run⟩ := bind_ok_iff.mp run
 obtain ⟨v, -, run⟩ := bind_ok_iff.mp run
 obtain ⟨w, -, last⟩ := bind_ok_iff.mp run
 cases last
 refine List.mem_append_right _ (List.mem_append_right _ ?_)
 simp

theorem initialize_rootVariableName {option : TextOption} {alive : ℕ → Bool} {ast : Ast}
  (run : TextGen.initialize option alive ast = .ok g) :
  g.rootVariableName = globalMark ++ g.namePrefix ++ g.moduleName ++ moduleRootName := by
 unfold TextGen.initialize at run
 split at run
 · cases run
 · split at run
   · cases run
   · cases run
     rfl

theorem genConfigStructName_inj {node other : ℕ} :
  genConfigStructName g node = genConfigStructName g other ↔
   toUpperCamelString (g.h.get node).name = toUpperCamelString (g.h.get other).name := by
 rw [genConfigStructName, genConfigStructName, List.append_right_inj]

theorem structs_distinct_iff {s t : TextState} (fresh : s.symbolSet = [])
  (empty : s.out = []) (header : Defined g (postorder g.children g.levels g.astRoot) s t) :
  (∀ node other, g.HasStruct node → g.HasStruct other →
   .tag other (genConfigStructName g node) ∈ t.out →
    (g.h.get other).name = (g.h.get node).name) ↔
   ∀ node other, g.HasStruct node → g.HasStruct other →
    toUpperCamelString (g.h.get other).name = toUpperCamelString (g.h.get node).name →
     (g.h.get other).name = (g.h.get node).name := by
 have own {node : ℕ} {name : Str} (mem : .tag node name ∈ t.out) :
   name = genConfigStructName g node := by
  rcases header.own _ (mem_tags.mpr mem) with old | own
  · rw [empty] at old
    cases old
  · exact own
 constructor
 · intro distinct node other struct struct' same
   have named := header.named node struct.1 struct.2
   rcases header.defined _ named with old | ⟨first, mem, structured, tag⟩
   · rw [fresh] at old
     cases old
   · rw [mem_tags] at tag
     have here := distinct node first struct ⟨mem, structured⟩ tag
     rw [← genConfigStructName_inj.mpr same] at tag
     have there := distinct other first struct' ⟨mem, structured⟩ tag
     exact there.symm.trans here
 · intro apart node other struct struct' tag
   exact apart node other struct struct' (genConfigStructName_inj.mp (own tag).symm)

theorem globals_distinct_iff {s t : TextState} {rounds : ℕ} (rootName : g.rootVariableName =
   globalMark ++ g.namePrefix ++ g.moduleName ++ moduleRootName)
  (run : implOutput g rounds s = .ok t) (written : Written g g.namings t) :
  (∀ x y name, .global x name ∈ t.out → .global y name ∈ t.out → x = y) ↔
   (∀ node, .template node ∈ g.namings → (g.h.get node).inheritCount ≠ 0 →
    node ≠ g.astRoot → g.number (.template node) = 1 →
     toUpperCamelString (g.h.get node).name ≠ g.moduleName ++ moduleRootName) ∧
   ∀ e ∈ g.namings, ∀ e' ∈ g.namings, g.Shown e → g.Shown e' → g.key e ≠ g.key e' →
    ¬g.RunsInto e e' := by
 have complete {e : Naming} (mem : e ∈ g.namings) (shown : g.Shown e) :
   .global e.object (g.identifier g.namings e) ∈ t.out :=
  mem_globals.mp (written.complete e mem shown)
 constructor
 · intro distinct
   refine ⟨fun node mem shown other first name => other ?_, fun e mem e' mem' shown shown' => ?_⟩
   · have here := complete mem shown
     rw [(identifier_root_iff rootName mem).mpr ⟨node, rfl, first, name⟩] at here
     exact distinct _ _ _ here (implOutput_root run)
   · intro apart runs
     have here := complete mem shown
     rw [(identifier_eq_iff e e').mpr (.inl runs)] at here
     have same := distinct _ _ _ here (complete mem' shown')
     exact apart (congrArg g.key (object_inj (namings_fits mem) (namings_fits mem') same))
 · rintro ⟨root, numbers⟩
   have notRoot {e : Naming} (mem : e ∈ g.namings) (shown : g.Shown e)
     (same : g.identifier g.namings e = g.rootVariableName) : e.object = g.astRoot := by
    obtain ⟨node, rfl, first, name⟩ := (identifier_root_iff rootName mem).mp same
    by_contra other
    exact root node mem shown other first name
   intro x y name memx memy
   rcases written.sound x name (mem_globals.mpr memx) with ⟨rfl, rfl⟩ | ⟨e, mem, shown, rfl, same⟩
   · rcases written.sound y _ (mem_globals.mpr memy) with ⟨rfl, -⟩ | ⟨e, mem, shown, rfl, same⟩
     · rfl
     · exact (notRoot mem shown same).symm
   · rcases written.sound y _ (mem_globals.mpr memy) with
      ⟨rfl, rfl⟩ | ⟨e', mem', shown', rfl, same'⟩
     · exact notRoot mem shown same
     · have text := same.trans same'.symm
       by_cases key : g.key e = g.key e'
       · rw [identifier_inj mem mem' key text]
       · rcases (identifier_eq_iff e e').mp text with runs | runs
         · exact absurd runs (numbers e mem e' mem' shown shown' key)
         · exact absurd runs (numbers e' mem' e mem shown' shown (Ne.symm key))

theorem names_start {s : TextState} (symMap : s.symMap = fun _ => none)
  (sigNum : s.sigNum = fun _ => 0) (templateSignNum : s.templateSignNum = fun _ => 0) :
  Names g [] s where
 symbols k := by
  rw [symMap]
  rfl
 arrays term := by
  rw [sigNum]
  rfl
 templates node := by
  rw [templateSignNum]
  rfl

theorem written_start {s : TextState} (names : Names g [] s) (empty : s.out = []) :
  Written g [] s where
 names := names
 sound x name mem := by
  rw [empty] at mem
  cases mem
 complete e mem := by cases mem

theorem TextGen.NamesApart.of_identifiers (rootName : g.rootVariableName =
   globalMark ++ g.namePrefix ++ g.moduleName ++ moduleRootName)
  (structs : ∀ node ∈ postorder g.children g.levels g.astRoot,
   ∀ other ∈ postorder g.children g.levels g.astRoot,
    (g.h.get node).isNode = true → (g.h.get other).isNode = true →
     toUpperCamelString (g.h.get other).name = toUpperCamelString (g.h.get node).name →
      (g.h.get other).name = (g.h.get node).name)
  (root : ∀ e ∈ g.namings, g.identifier g.namings e ≠ g.rootVariableName)
  (apart : ∀ e ∈ g.namings, ∀ e' ∈ g.namings, e ≠ e' →
   g.identifier g.namings e ≠ g.identifier g.namings e') : g.NamesApart where
 structs node other struct struct' := structs node struct.1 other struct'.1 struct.2.1 struct'.2.1
 root node mem _ _ first name :=
  root _ mem ((identifier_root_iff rootName mem).mpr ⟨node, rfl, first, name⟩)
 numbers e mem e' mem' _ _ key runs :=
  apart e mem e' mem' (fun same => key (congrArg g.key same))
   ((identifier_eq_iff e e').mpr (.inl runs))

def camelNodes : SourceObjects :=
 .term Ast.moduleName (.string [0x6D]) <|
  .node [0x66, 0x5F, 0x62] .noRef [] .nil <| .node [0x66, 0x42] .noRef [] .nil .nil

end DriversFramework.HcAst
