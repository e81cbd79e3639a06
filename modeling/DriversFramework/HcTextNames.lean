import DriversFramework.FirstNumbers
import DriversFramework.HcTextCounts

namespace DriversFramework.HcAst

open AstHeap TreeWalks FirstNumbers

inductive Naming where
 | array (term : ℕ)
 | template (node : ℕ)
 deriving DecidableEq

def Naming.object : Naming → ℕ
 | .array term => term
 | .template node => node

section names
variable (g : TextGen)

def TextGen.key : Naming → Str
 | .array term => configArrayName ++ toUpperCamelString (g.h.get term).name
 | .template node => toUpperCamelString (g.h.get node).name

/-- A name without its number. -/
def TextGen.base : Naming → Str
 | .array term => g.key (.array term)
 | .template node => globalMark ++ g.namePrefix ++ g.key (.template node)

def signNum (number : ℕ) : ℕ := if number = 1 then 0 else number

def Naming.numeral (number : ℕ) : Naming → Str
 | .array _ => toStr number
 | .template _ => if signNum number ≠ 0 then toStr (signNum number) else []

def TextGen.identifier (calls : List Naming) (e : Naming) : Str :=
 g.base e ++ e.numeral (number g.key calls e)

/-- The variable is written where it is named. -/
def TextGen.Shown : Naming → Prop
 | .array _ => True
 | .template node => (g.h.get node).inheritCount ≠ 0

def declaredNamings (object : ℕ) : List Naming :=
 let o := g.h.get object
 if o.isTerm then
  if isInSubClassNode g.h object ∧ (g.arrayOf object).isSome then [.array object] else []
 else if o.isTemplate ∧ o.inheritCount ≠ 0 then [.template object]
 else []

def shownNamings (object : ℕ) : List Naming :=
 let o := g.h.get object
 if o.isNode then if o.nodeType = .template then [.template object] else []
 else if o.isTerm ∧ isInSubClassNode g.h object ∧ (g.arrayOf object).isSome then [.array object]
 else []

def callNamings (namings : ℕ → List Naming) (call : Bool × ℕ × ℕ) : List Naming :=
 if call.1 then namings call.2.1 else []

def bodyNamings (object : ℕ) : List Naming :=
 (roundOrder g.children (enters g) g.levels 0 object).flatMap (callNamings (shownNamings g))

def templateNamings (object : ℕ) : List Naming :=
 let o := g.h.get object
 if o.isTemplate ∧ o.inheritCount ≠ 0 then
  .template object :: o.subClasses.flatMap fun c => (g.children c).flatMap (bodyNamings g)
 else []

def rootNamings (object : ℕ) : List Naming :=
 let o := g.h.get object
 if o.isTerm ∧ isInSubClassNode g.h object ∨ object = g.astRoot then []
 else shownNamings g object

def TextGen.namings : List Naming :=
 (postorder g.children g.levels g.astRoot).flatMap (declaredNamings g) ++
  (postorder g.children g.levels g.astRoot).flatMap (templateNamings g) ++
  (roundOrder g.children (rootEnters g) g.levels 0 g.astRoot).flatMap
   (callNamings (rootNamings g))

end names

theorem toUpper_ne {c : UInt8} (other : c ≠ underLine) : toUpper c ≠ underLine := by
 unfold toUpper underLine at *
 split
 · next letter =>
   intro same
   have := letter.2
   grind
 · exact other

theorem toCamelFrom_plain : ∀ (cb : UInt8) (str : Str), underLine ∉ toCamelFrom cb str
 | _, [] => List.not_mem_nil
 | cb, c :: str => by
  rw [toCamelFrom]
  split
  · exact toCamelFrom_plain c str
  · next other =>
    intro mem
    rcases List.mem_cons.mp mem with same | mem
    · split at same
      · exact toUpper_ne other same.symm
      · exact other same.symm
    · exact toCamelFrom_plain c str mem

theorem toUpperCamelString_plain (str : Str) : underLine ∉ toUpperCamelString str := by
 have camel : underLine ∉ toCamelString str := by
  unfold toCamelString
  split
  · exact toCamelFrom_plain 0 str
  · assumption
 unfold toUpperCamelString
 cases chars : toCamelString str with
 | nil => exact List.not_mem_nil
 | cons c rest =>
  rw [chars] at camel
  intro mem
  rcases List.mem_cons.mp mem with same | mem
  · exact toUpper_ne (fun here => camel (here ▸ List.mem_cons_self)) same.symm
  · exact camel (List.mem_cons_of_mem c mem)

theorem key_array_ne (g : TextGen) (term node : ℕ) :
 g.key (.array term) ≠ g.key (.template node) := by
 intro same
 refine toUpperCamelString_plain (g.h.get node).name ?_
 rw [TextGen.key, TextGen.key] at same
 rw [← same]
 exact List.mem_append_left _ (by decide)

structure Names (g : TextGen) (calls : List Naming) (s : TextState) : Prop where
 symbols : ∀ k, s.symMap k =
  (peers g.key calls k).head?.map fun e => ⟨e.object, (peers g.key calls k).length⟩
 arrays : ∀ term, s.sigNum term = number g.key calls (.array term)
 templates : ∀ node, s.templateSignNum node = signNum (number g.key calls (.template node))

variable {e : Naming}

section given
variable {g : TextGen} {calls : List Naming} {s : TextState}

theorem Names.put (names : Names g calls s) (inserts : List Insert) : Names g calls
 (s.put inserts) :=
 ⟨names.symbols, names.arrays, names.templates⟩

theorem Names.again (names : Names g calls s) (old : e ∈ calls) : Names g (calls ++ [e]) s where
 symbols k := by
  rw [peers_again old]
  exact names.symbols k
 arrays term := by
  rw [number_again old]
  exact names.arrays term
 templates node := by
  rw [number_again old]
  exact names.templates node

theorem symbols_new (names : Names g calls s) (new : e ∉ calls) (symbol : TextSymbol)
 (first : symbol.object = ((peers g.key calls (g.key e)).head?.getD e).object)
 (number : symbol.duplicateCount = (peers g.key calls (g.key e)).length + 1) (k : Str) :
 (s.setSymbol (g.key e) symbol).symMap k =
  (peers g.key (calls ++ [e]) k).head?.map fun e' =>
   ⟨e'.object, (peers g.key (calls ++ [e]) k).length⟩ := by
 change Function.update s.symMap (g.key e) (some symbol) k = _
 by_cases here : g.key e = k
 · rw [← here, Function.update_self, peers_new new, List.head?_append, List.length_append,
    List.length_singleton, List.head?_singleton]
   obtain ⟨object, duplicateCount⟩ := symbol
   cases list : (peers g.key calls (g.key e)).head? with
   | none =>
    rw [list] at first
    rw [show object = e.object from first, show duplicateCount = _ from number]
    rfl
   | some e' =>
    rw [list] at first
    rw [show object = e'.object from first, show duplicateCount = _ from number]
    rfl
 · rw [Function.update_of_ne (Ne.symm here), peers_other here]
   exact names.symbols k

theorem Names.add (names : Names g calls s) (new : e ∉ calls) {t : TextState}
 (symbols : ∀ k, t.symMap k = (peers g.key (calls ++ [e]) k).head?.map fun e' =>
  ⟨e'.object, (peers g.key (calls ++ [e]) k).length⟩)
 (arrays : ∀ term, t.sigNum term =
  if .array term = e then (peers g.key calls (g.key e)).length + 1 else s.sigNum term)
 (templates : ∀ node, t.templateSignNum node =
  if .template node = e then signNum ((peers g.key calls (g.key e)).length + 1)
  else s.templateSignNum node) : Names g (calls ++ [e]) t where
 symbols := symbols
 arrays term := by
  rw [arrays term]
  split
  · next same =>
    subst same
    exact (number_new new).symm
  · next other => rw [names.arrays term, number_snoc other]
 templates node := by
  rw [templates node]
  split
  · next same =>
    subst same
    rw [number_new new]
  · next other => rw [names.templates node, number_snoc other]

theorem Names.symbol_new (names : Names g calls s) :
 (s.symMap (g.key e) = none ∧ peers g.key calls (g.key e) = []) ∨
  ∃ e' ∈ calls, g.key e' = g.key e ∧ (peers g.key calls (g.key e)).head? = some e' ∧
   s.symMap (g.key e) = some ⟨e'.object, (peers g.key calls (g.key e)).length⟩ := by
 have symbols := names.symbols (g.key e)
 cases list : (peers g.key calls (g.key e)).head? with
 | none =>
  rw [list] at symbols
  exact .inl ⟨symbols, List.head?_eq_none_iff.mp list⟩
 | some e' =>
  rw [list] at symbols
  obtain ⟨mem, same⟩ := mem_peers.mp (List.mem_of_head? list)
  exact .inr ⟨e', mem, same, rfl, symbols⟩

theorem peers_ne_nil (old : e ∈ calls) : peers g.key calls (g.key e) ≠ [] :=
 List.ne_nil_of_mem (mem_peers.mpr ⟨old, rfl⟩)

theorem symbols_first (names : Names g calls s) (absent : s.symMap (g.key e) = none)
 (empty : peers g.key calls (g.key e) = []) (k : Str) :
 (symbolAdd s (g.key e) e.object).symMap k =
  (peers g.key (calls ++ [e]) k).head?.map fun e' =>
   ⟨e'.object, (peers g.key (calls ++ [e]) k).length⟩ := by
 rw [symbolAdd, absent]
 exact symbols_new names (fun old => peers_ne_nil old empty) ⟨e.object, 1⟩ (by rw [empty]; rfl)
  (by rw [empty]; rfl) k

theorem symbolAdd_sigNum (s : TextState) (name : Str) (object : ℕ) :
 (symbolAdd s name object).sigNum = s.sigNum := by
 unfold symbolAdd
 split <;> rfl

theorem symbolAdd_templateSignNum (s : TextState) (name : Str) (object : ℕ) :
 (symbolAdd s name object).templateSignNum = s.templateSignNum := by
 unfold symbolAdd
 split <;> rfl

theorem update_array (f : ℕ → ℕ) (term n other : ℕ) : Function.update f term n other =
 if Naming.array other = .array term then n else f other := by
 simp only [Function.update_apply, Naming.array.injEq]

theorem update_template (f : ℕ → ℕ) (node n other : ℕ) : Function.update f node n other =
 if Naming.template other = .template node then n else f other := by
 simp only [Function.update_apply, Naming.template.injEq]

theorem array_ne_template (term node : ℕ) : Naming.array term ≠ .template node := by
 intro same
 cases same

theorem genArrayName_names (names : Names g calls s) (term : ℕ) :
 Names g (calls ++ [.array term]) (genArrayName g s term).2 ∧
  (genArrayName g s term).1 = g.identifier (calls ++ [.array term]) (.array term) := by
 suffices kept : Names g (calls ++ [.array term]) (genArrayName g s term).2 by
  refine ⟨kept, ?_⟩
  rw [TextGen.identifier, ← kept.arrays term]
  rfl
 have given : s.sigNum term = 0 ↔ .array term ∉ calls := by
  rw [names.arrays term, number_eq_zero_iff]
 unfold genArrayName
 dsimp only
 rw [show configArrayName ++ toUpperCamelString (g.h.get term).name = g.key (.array term) from rfl]
 rcases names.symbol_new (e := .array term) with ⟨absent, empty⟩ | ⟨e', mem, same, first, present⟩
 · rw [absent]
   refine names.add (fun old => peers_ne_nil old empty) (symbols_first names absent empty)
    (fun other => ?_) fun node => ?_
   · change Function.update (symbolAdd s _ term).sigNum term 1 other = _
     rw [symbolAdd_sigNum, empty]
     exact update_array s.sigNum term 1 other
   · rw [if_neg (array_ne_template term node).symm]
     exact congrFun (symbolAdd_templateSignNum s _ term) node
 · rw [present]
   dsimp only
   by_cases old : .array term ∈ calls
   · rw [if_neg (given.not.mpr (not_not.mpr old))]
     exact names.again old
   rw [if_pos (given.mpr old)]
   refine names.add old (symbols_new names old _ (by rw [first]; rfl) rfl) (fun other => ?_)
    fun node => ?_
   · exact update_array s.sigNum term _ other
   · rw [if_neg (array_ne_template term node).symm]
     rfl

def signedName (g : TextGen) (t : TextState) (node : ℕ) : Str × TextState :=
 if t.templateSignNum node ≠ 0 then
  (globalMark ++ g.namePrefix ++ g.key (.template node) ++ toStr (t.templateSignNum node), t)
 else (globalMark ++ g.namePrefix ++ g.key (.template node), t)

theorem signedName_names {t : TextState} {node : ℕ}
 (kept : Names g (calls ++ [.template node]) t) :
 Names g (calls ++ [.template node]) (signedName g t node).2 ∧
  (signedName g t node).1 = g.identifier (calls ++ [.template node]) (.template node) := by
 rw [TextGen.identifier, Naming.numeral, ← kept.templates node, signedName]
 split
 · exact ⟨kept, rfl⟩
 · refine ⟨kept, ?_⟩
   rw [List.append_nil]
   rfl

theorem genTemplateVariableName_names (names : Names g calls s) (node : ℕ) :
 Names g (calls ++ [.template node]) (genTemplateVariableName g s node).2 ∧
  (genTemplateVariableName g s node).1 =
   g.identifier (calls ++ [.template node]) (.template node) := by
 have own := names.templates node
 unfold genTemplateVariableName
 dsimp only
 rw [show toUpperCamelString (g.h.get node).name = g.key (.template node) from rfl]
 rcases names.symbol_new (e := .template node) with
  ⟨absent, empty⟩ | ⟨e', mem, same, first, present⟩
 · rw [absent]
   have new : .template node ∉ calls := fun old => peers_ne_nil old empty
   refine signedName_names (names.add new (symbols_first names absent empty) (fun term => ?_)
    fun other => ?_)
   · rw [if_neg (array_ne_template term node)]
     exact congrFun (symbolAdd_sigNum s _ node) term
   · change (symbolAdd s _ node).templateSignNum other = _
     rw [symbolAdd_templateSignNum, empty]
     split
     · next here =>
       rw [Naming.template.inj here, own, number_eq_zero_iff.mpr new]
       rfl
     · rfl
 · rw [present]
   dsimp only
   refine signedName_names ?_
   by_cases old : .template node ∈ calls
   · -- the first one is the object of the symbol, and the others have their number
     have quiet : ¬(e'.object ≠ node ∧ s.templateSignNum node = 0) := by
      rintro ⟨other, unsigned⟩
      rw [own, signNum] at unsigned
      split at unsigned
      · next one =>
        rw [number_eq_one_iff old, first] at one
        rw [Option.some.inj one] at other
        exact other rfl
      · exact number_eq_zero_iff.mp unsigned old
     rw [if_neg quiet]
     exact names.again old
   have taken : e'.object ≠ node ∧ s.templateSignNum node = 0 := by
    constructor
    · rintro rfl
      cases e' with
      | array term => exact key_array_ne g _ _ same
      | template node => exact old mem
    · rw [own, number_eq_zero_iff.mpr old]
      rfl
   rw [if_pos taken]
   refine names.add old (symbols_new names old _ (by rw [first]; rfl) rfl) (fun term => ?_)
    fun other => ?_
   · rw [if_neg (array_ne_template term node)]
     rfl
   · have more : signNum ((peers g.key calls (g.key (.template node))).length + 1) =
      (peers g.key calls (g.key (.template node))).length + 1 := by
      refine if_neg ?_
      have some_ : (peers g.key calls (g.key (.template node))).length ≠ 0 := by
       rw [Ne, List.length_eq_zero_iff]
       intro empty
       rw [empty] at first
       cases first
      omega
     rw [more]
     exact update_template s.templateSignNum node _ other

end given

def Insert.globalName : Insert → Option (ℕ × Str)
 | .global object s => some (object, s)
 | _ => none

def globals (file : List Insert) : List (ℕ × Str) := file.filterMap Insert.globalName

theorem globals_append (front back : List Insert) :
 globals (front ++ back) = globals front ++ globals back := List.filterMap_append

structure Written (g : TextGen) (calls : List Naming) (s : TextState) : Prop where
 names : Names g calls s
 sound : ∀ x name, (x, name) ∈ globals s.out → x = g.astRoot ∧ name = g.rootVariableName ∨
  ∃ e ∈ calls, g.Shown e ∧ e.object = x ∧ g.identifier calls e = name
 complete : ∀ e ∈ calls, g.Shown e → (e.object, g.identifier calls e) ∈ globals s.out

def Calls (g : TextGen) (s t : TextState) (named : List Naming) : Prop :=
 ∀ calls, Written g calls s → Written g (calls ++ named) t

variable {inserts : List Insert}

section written
variable {g : TextGen} {s t : TextState}

theorem Calls.trans {u : TextState} {named named' : List Naming} (first : Calls g s t named)
 (second : Calls g t u named') : Calls g s u (named ++ named') := by
 intro calls written
 rw [← List.append_assoc]
 exact second _ (first calls written)

theorem calls_refl : Calls g s s [] := by
 intro calls written
 rwa [List.append_nil]

theorem calls_put (silent : ∀ named ∈ globals inserts, named = (g.astRoot, g.rootVariableName)) :
 Calls g s (s.put inserts) [] := by
 intro calls written
 rw [List.append_nil]
 refine ⟨written.names.put inserts, fun x name mem => ?_, fun e mem shown => ?_⟩
 · rcases List.mem_append.mp (globals_append s.out inserts ▸ mem) with mem | mem
   · exact written.sound x name mem
   · obtain ⟨rfl, rfl⟩ := Prod.mk.inj (silent _ mem)
     exact .inl ⟨rfl, rfl⟩
 · change _ ∈ globals (s.out ++ inserts)
   rw [globals_append]
   exact List.mem_append_left _ (written.complete e mem shown)

theorem calls_texts (silent : globals inserts = []) : Calls g s (s.put inserts) [] := by
 refine calls_put fun named mem => ?_
 rw [silent] at mem
 cases mem

theorem calls_named {named : Str × TextState}
 (names : ∀ calls, Names g calls s → Names g (calls ++ [e]) named.2 ∧
  named.1 = g.identifier (calls ++ [e]) e)
 (same : named.2.out = s.out)
 (shown : g.Shown e → globals inserts = [(e.object, named.1)])
 (hidden : ¬g.Shown e → globals inserts = []) : Calls g s (named.2.put inserts) [e] := by
 intro calls written
 obtain ⟨kept, name⟩ := names calls written.names
 have stays (e' : Naming) (mem : e' ∈ calls) :
  g.identifier (calls ++ [e]) e' = g.identifier calls e' := by
  rw [TextGen.identifier, number_append mem, TextGen.identifier]
 have out : globals (named.2.put inserts).out = globals s.out ++ globals inserts := by
  rw [← globals_append, ← same]
  rfl
 refine ⟨kept.put inserts, fun x text mem => ?_, fun e' mem shows => ?_⟩
 · rw [out] at mem
   rcases List.mem_append.mp mem with mem | mem
   · rcases written.sound x text mem with root | ⟨e', mem', shows, object, text⟩
     · exact .inl root
     · exact .inr ⟨e', List.mem_append_left _ mem', shows, object, (stays e' mem').trans text⟩
   · by_cases shows : g.Shown e
     · rw [shown shows, List.mem_singleton] at mem
       obtain ⟨rfl, rfl⟩ := Prod.mk.inj mem
       exact .inr ⟨e, List.mem_append_right _ List.mem_cons_self, shows, rfl, name.symm⟩
     · rw [hidden shows] at mem
       cases mem
 · rw [out]
   rcases List.mem_append.mp mem with mem | mem
   · rw [stays e' mem]
     exact List.mem_append_left _ (written.complete e' mem shows)
   · obtain rfl := List.mem_singleton.mp mem
     rw [shown shows, ← name]
     exact List.mem_append_right _ List.mem_cons_self

theorem calls_foldlM {α : Type} {step : TextState → α → TextResult} (named : α → List Naming) :
 ∀ {as : List α} {s t : TextState},
  (∀ a ∈ as, ∀ s t, step s a = .ok t → Calls g s t (named a)) → as.foldlM step s = .ok t →
   Calls g s t (as.flatMap named)
 | [], s, t, _, run => by
  cases run
  exact calls_refl
 | a :: as, s, t, one, run => by
  rw [List.foldlM_cons, bind_ok_iff] at run
  obtain ⟨u, call, run⟩ := run
  rw [List.flatMap_cons]
  exact (one a List.mem_cons_self s u call).trans
   (calls_foldlM named (fun b hb => one b (List.mem_cons_of_mem a hb)) run)

theorem globals_printBaseTypeValue (object : ℕ) : globals (printBaseTypeValue g object) = [] := by
 unfold printBaseTypeValue
 dsimp only
 cases (g.h.get object).type <;> rfl

theorem globals_hcsPrintElements (times : ℕ) (elements : List ℕ) : ∀ elementCount : ℕ,
 globals (hcsPrintElements g times elementCount elements) = [] := by
 induction elements with
 | nil => exact fun _ => rfl
 | cons element elements ih =>
  intro elementCount
  have line : globals (if elementPerLine ≤ elementCount then [.text "\n", indent times]
   else []) = [] := by
   split <;> rfl
  have comma : globals (if elements = [] then [] else [.text ", "]) = [] := by
   split <;> rfl
  rw [hcsPrintElements, globals_append, globals_append, globals_append, line, comma,
   globals_printBaseTypeValue, ih]
  rfl

theorem globals_hcsPrintArrayContent (array times : ℕ) :
 globals (hcsPrintArrayContent g array times) = [] :=
 globals_hcsPrintElements times _ 0

end written

section functions
variable {g : TextGen} {s t : TextState}

theorem calls_array {term : ℕ} (here : globals inserts = [(term, (genArrayName g s term).1)]) :
 Calls g s ((genArrayName g s term).2.put inserts) [.array term] :=
 calls_named (fun _ names => genArrayName_names names term) (genArrayName_out term)
  (fun _ => here) fun hidden => (hidden trivial).elim

theorem calls_template {node : ℕ} (shown : (g.h.get node).inheritCount ≠ 0 →
  globals inserts = [(node, (genTemplateVariableName g s node).1)])
 (hidden : (g.h.get node).inheritCount = 0 → globals inserts = []) :
 Calls g s ((genTemplateVariableName g s node).2.put inserts) [.template node] :=
 calls_named (fun _ names => genTemplateVariableName_names names node)
  (genTemplateVariableName_out node) shown fun other => hidden (not_not.mp other)

theorem arrayVariablesDeclareGen_calls {term value : ℕ} (isTerm : (g.h.get term).isTerm = true)
 (child : g.h.child term = some value) (array : (g.h.get value).type = .array) :
 Calls g s (arrayVariablesDeclareGen g s term value) (declaredNamings g term) := by
 unfold arrayVariablesDeclareGen declaredNamings
 dsimp only
 rw [if_pos isTerm, arrayOf_eq child array]
 split
 · next inside =>
   rw [if_pos ⟨inside, rfl⟩]
   refine calls_array ?_
   rw [globals_append, globals_append, globals_hcsPrintArrayContent]
   rfl
 · next outside =>
   rw [if_neg fun both => outside both.1]
   exact calls_refl

variable {object : ℕ}

theorem declareAt_calls (run : declareAt g s object = .ok t) :
 Calls g s t (declaredNamings g object) := by
 unfold declareAt at run
 dsimp only at run
 by_cases isTerm : (g.h.get object).isTerm = true
 · rw [if_pos isTerm] at run
   cases child : g.h.child object with
   | none =>
    rw [child] at run
    cases run
   | some value =>
    rw [child] at run
    dsimp only at run
    split at run
    · next array =>
      cases run
      exact arrayVariablesDeclareGen_calls isTerm child array
    · next other =>
      cases run
      have nothing : declaredNamings g object = [] := by
       rw [declaredNamings, arrayOf_none child other, if_pos isTerm]
       exact if_neg fun both => absurd both.2 (by decide)
      rw [nothing]
      exact calls_refl
 · rw [if_neg isTerm] at run
   rw [declaredNamings, if_neg isTerm]
   split at run
   · next counted =>
     cases run
     rw [if_pos counted]
     exact calls_template (fun _ => rfl) fun none_ => absurd none_ counted.2
   · next other =>
     cases run
     rw [if_neg other]
     exact calls_refl

theorem printArrayImplement_calls {term value : ℕ} (depth : ℕ) :
 Calls g s (printArrayImplement g s term value depth)
  (if isInSubClassNode g.h term then [.array term] else []) := by
 unfold printArrayImplement
 split
 · exact calls_array rfl
 · refine calls_texts ?_
   rw [globals_append, globals_append, globals_hcsPrintArrayContent]
   rfl

theorem printTermImplement_calls {term depth : ℕ} (isTerm : (g.h.get term).isTerm = true)
 (notNode : (g.h.get term).isNode = false) (run : printTermImplement g s term depth = .ok t) :
 Calls g s t (shownNamings g term) := by
 unfold printTermImplement at run
 unfold shownNamings
 dsimp only
 rw [if_neg (by simp [notNode])]
 cases child : g.h.child term with
 | none =>
  rw [child] at run
  cases run
 | some value =>
  rw [child] at run
  dsimp only at run
  by_cases array : (g.h.get value).type = .array
  · rw [array] at run
    cases run
    have same : (if (g.h.get term).isTerm = true ∧ isInSubClassNode g.h term = true ∧
     (g.arrayOf term).isSome = true then [Naming.array term] else []) =
     if isInSubClassNode g.h term then [.array term] else [] := by
     rw [arrayOf_eq child array, isTerm]
     simp
    rw [same]
    exact printArrayImplement_calls depth
  have none_ : ¬((g.h.get term).isTerm = true ∧ isInSubClassNode g.h term = true ∧
   (g.arrayOf term).isSome = true) := by
   rw [arrayOf_none child array]
   rintro ⟨-, -, some_⟩
   cases some_
  rw [if_neg none_]
  have shown : Calls g s (s.put ([indent depth, .text ".", g.nameOf term, .text " = "] ++
   printBaseTypeValue g value ++ [.text ",\n"])) [] := by
   refine calls_texts ?_
   rw [globals_append, globals_append, globals_printBaseTypeValue]
   rfl
  cases kind : (g.h.get value).type with
  | uint8 | uint16 | uint32 | uint64 | string =>
   rw [kind] at run
   cases run
   exact shown
  | array => exact absurd kind array
  | nodeRef =>
   rw [kind] at run
   obtain ⟨refPath, -, last⟩ := bind_ok_iff.mp run
   cases last
   exact calls_texts rfl
  | confNode | confTerm | delete =>
   rw [kind] at run
   cases run
   exact calls_refl

theorem templateObjectImplGen_calls (depth : ℕ) : Calls g s (templateObjectImplGen g s object depth)
  (if (g.h.get object).nodeType = .template then [.template object] else []) := by
 unfold templateObjectImplGen
 by_cases template : (g.h.get object).nodeType = .template
 · rw [if_neg (not_not.mpr template), if_pos template]
   refine calls_template (fun some_ => ?_) fun none_ => ?_
   · rw [if_pos some_]
     rfl
   · rw [if_neg (not_not.mpr none_)]
     rfl
 · rw [if_pos template, if_neg template]
   exact calls_refl

theorem objectImplementGen_calls {depth : ℕ} {descend : Bool}
 (run : objectImplementGen g s object depth = .ok (descend, t)) :
 Calls g s t (shownNamings g object) := by
 unfold objectImplementGen at run
 dsimp only at run
 by_cases node : (g.h.get object).isNode = true
 · rw [if_pos node] at run
   rw [shownNamings, if_pos node]
   by_cases plain : (g.h.get object).nodeType = .noRef
   · rw [if_neg (not_not.mpr plain)] at run
     cases run
     rw [plain]
     refine calls_texts ?_
     rw [globals_append]
     split <;> rfl
   · rw [if_pos plain] at run
     cases run
     exact templateObjectImplGen_calls depth
 · rw [if_neg node] at run
   by_cases isTerm : (g.h.get object).isTerm = true
   · rw [if_pos isTerm] at run
     obtain ⟨u, shown, last⟩ := bind_ok_iff.mp run
     cases last
     exact printTermImplement_calls isTerm (by simpa using node) shown
   · rw [if_neg isTerm] at run
     cases run
     rw [shownNamings, if_neg node, if_neg fun all => isTerm all.1]
     exact calls_refl

theorem implementCloseBraceGen_calls {depth : ℕ}
 (run : implementCloseBraceGen g s object depth = .ok t) : Calls g s t [] := by
 unfold implementCloseBraceGen at run
 dsimp only at run
 split at run
 · cases run
   exact calls_refl
 · split at run <;>
   · cases run
     exact calls_texts rfl

theorem implementGenTraversal_calls {depth : ℕ} {descend : Bool}
 (run : implementGenTraversal g s object depth = .ok (descend, t)) :
 Calls g s t (rootNamings g object) := by
 unfold implementGenTraversal at run
 unfold rootNamings
 dsimp only at run ⊢
 by_cases other : ¬(g.h.get object).isNode = true ∧ ¬(g.h.get object).isTerm = true
 · rw [if_pos other] at run
   cases run
   have nothing : shownNamings g object = [] := by
    rw [shownNamings, if_neg other.1, if_neg fun all => other.2 all.1]
   rw [nothing, ite_self]
   exact calls_refl
 rw [if_neg other] at run
 by_cases inside : (g.h.get object).isTerm = true ∧ isInSubClassNode g.h object = true
 · rw [if_pos inside] at run
   cases run
   rw [if_pos (.inl inside)]
   exact calls_refl
 rw [if_neg inside] at run
 by_cases root : object = g.astRoot
 · rw [if_pos root] at run
   cases run
   have out : (g.h.get object).isTerm = true ∧ isInSubClassNode g.h object = true ∨
    object = g.astRoot := .inr root
   rw [if_pos out]
   refine calls_put fun named mem => ?_
   rw [globals_append] at mem
   have closing : globals (if (g.h.get object).children = [] then
    [Insert.text "\x7d;\n"] else []) = [] := by
    split <;> rfl
   rw [closing, List.append_nil] at mem
   exact root ▸ List.mem_singleton.mp mem
 · rw [if_neg root] at run
   rw [if_neg (not_or.mpr ⟨inside, root⟩)]
   exact objectImplementGen_calls run

theorem roundCall_calls {forward : TextState → ℕ → ℕ → Except Stop (Bool × TextState)}
 {backward : TextState → ℕ → ℕ → TextResult} {namings : ℕ → List Naming}
 (before : ∀ {s t : TextState} {object depth : ℕ} {descend : Bool},
  forward s object depth = .ok (descend, t) → Calls g s t (namings object))
 (behind : ∀ {s t : TextState} {object depth : ℕ},
  backward s object depth = .ok t → Calls g s t [])
 (call : Bool × ℕ × ℕ) (run : roundCall forward backward s call = .ok t) :
 Calls g s t (callNamings namings call) := by
 unfold callNamings
 rw [roundCall] at run
 split at run
 · next first =>
   rw [if_pos first]
   cases out : forward s call.2.1 call.2.2 with
   | error e =>
    rw [out] at run
    cases run
   | ok both =>
    obtain ⟨descend, u⟩ := both
    rw [out] at run
    cases run
    exact before out
 · next last =>
   rw [if_neg last]
   exact behind run

variable (within : ∀ object, Within g.children g.levels object)
include within

theorem instanceAt_calls {rounds template : ℕ} {subClass : ℕ × ℕ}
 (run : instanceAt g rounds template s subClass = .ok t) :
 Calls g s t ((g.children subClass.1).flatMap (bodyNamings g)) := by
 unfold instanceAt at run
 dsimp only at run
 obtain ⟨u, body, last⟩ := bind_ok_iff.mp run
 cases last
 have before : Calls g s (s.put [indent 1, .text "[", .number (.index template subClass.2)
  (g.h.get subClass.1).inheritIndex.toNat, .text "] = \x7b\n"]) [] := calls_texts rfl
 have middle := calls_foldlM (bodyNamings g) (fun object _ s t walk => by
  have order := walkRound_order (enters g) (fun out => (objectImplementGen_brings out).2)
   (within object) walk
  exact calls_foldlM _ (fun call _ s t run => roundCall_calls
   (fun out => objectImplementGen_calls out) implementCloseBraceGen_calls call run) order) body
 have behind : Calls g u (u.put [indent 1, .text "\x7d,\n"]) [] := calls_texts rfl
 have whole := (before.trans middle).trans behind
 rwa [List.nil_append, List.append_nil] at whole

theorem templateAt_calls {rounds : ℕ} (run : templateAt g rounds s object = .ok t) :
 Calls g s t (templateNamings g object) := by
 unfold templateAt at run
 unfold templateNamings
 dsimp only at run ⊢
 split at run
 · next counted =>
   rw [if_pos counted]
   obtain ⟨u, instances, last⟩ := bind_ok_iff.mp run
   cases last
   have before : Calls g s ((genTemplateVariableName g s object).2.put
    [.text "static const struct ", g.structTag object, .text " ",
     .global object (genTemplateVariableName g s object).1, .text "[] = \x7b\n"])
    [.template object] :=
    calls_template (fun _ => rfl) fun none_ => absurd none_ counted.2
   have middle := calls_foldlM (fun subClass => (g.children subClass.1).flatMap (bodyNamings g))
    (fun subClass _ s t run => instanceAt_calls within run) instances
   have places : (g.h.get object).subClasses.zipIdx.flatMap
    (fun subClass => (g.children subClass.1).flatMap (bodyNamings g)) =
    (g.h.get object).subClasses.flatMap fun c => (g.children c).flatMap (bodyNamings g) := by
    conv_rhs => rw [← List.zipIdx_map_fst 0 (g.h.get object).subClasses, List.flatMap_map]
   have behind : Calls g u (u.put [.text "\x7d;\n\n"]) [] := calls_texts rfl
   have whole := (before.trans middle).trans behind
   rwa [List.append_nil, places] at whole
 · next other =>
   cases run
   rw [if_neg other]
   exact calls_refl

theorem implOutput_calls {rounds : ℕ} (run : implOutput g rounds s = .ok t) :
 Calls g s t g.namings := by
 unfold implOutput at run
 dsimp only at run
 obtain ⟨u, declared, run⟩ := bind_ok_iff.mp run
 obtain ⟨v, instances, run⟩ := bind_ok_iff.mp run
 obtain ⟨w, root, last⟩ := bind_ok_iff.mp run
 cases last
 have tree := within g.astRoot
 have before : Calls g s (s.put [fileHeadComment, .text "#include \"", .name g.outputNameBase,
  .text ".h\"\n\n"]) [] := calls_texts rfl
 have first := calls_foldlM _ (fun _ _ _ _ call => declareAt_calls call)
  (walkBackward_order tree declared)
 have second := calls_foldlM _ (fun _ _ _ _ call => templateAt_calls within call)
  (walkBackward_order tree instances)
 have order := walkRound_order (rootEnters g)
  (fun out => (implementGenTraversal_brings out).2) tree root
 have third := calls_foldlM _ (fun call _ s t run => roundCall_calls
  (fun out => implementGenTraversal_calls out) implementCloseBraceGen_calls call run) order
 have behind : Calls g w (w.put ([.text "\n"] ++ rootFunction g ++ [.text "\n\x7b\n", indent 1,
  .text "return &", .global g.astRoot g.rootVariableName, .text ";\n\x7d\n"])) [] :=
  calls_put fun named mem => List.mem_singleton.mp mem
 have whole := (((before.trans first).trans second).trans third).trans behind
 rwa [List.nil_append, List.append_nil] at whole

end functions

end DriversFramework.HcAst
