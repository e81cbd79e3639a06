import DriversFramework.AudioSapm
import DriversFramework.RunRules

namespace DriversFramework.AudioSapm

open FiniteGraphs RunRules Relation

variable {n : ℕ}

def Route (card : AudioCard n) (a b : Fin n) : Prop :=
 ∃ path ∈ card.paths, path.source = a ∧ path.sink = b

def Edge (card : AudioCard n) (a b : Fin n) : Prop :=
 ∃ path ∈ card.paths, path.connect = true ∧ path.source = a ∧ path.sink = b

def Acyclic (card : AudioCard n) : Prop := ∀ c, ¬TransGen (Route card) c c

def InputConnected (card : AudioCard n) (c : Fin n) : Prop :=
 ∃ a, inputEndPoint (card.component a).sapmType = true ∧ ReflTransGen (Edge card) a c

def OutputConnected (card : AudioCard n) (c : Fin n) : Prop :=
 ∃ b, outputEndPoint (card.component b).sapmType = true ∧ ReflTransGen (Edge card) c b

/-- The component lies on a connected path from an input end point to an output end point. -/
def OnPath (card : AudioCard n) (c : Fin n) : Prop := InputConnected card c ∧ OutputConnected card c

/-- A component with a register is powered exactly if it lies on such a path. -/
def Agrees (card : AudioCard n) : Prop :=
 ∀ c, 0 ≤ (card.component c).reg →
  (OnPath card c → card.power c = sapmPowerUp) ∧ (¬OnPath card c → card.power c = sapmPowerDown)

/-- `AudioSapmNewComponent` sets `active` to 0, and nothing else sets it. -/
def Inactive (card : AudioCard n) : Prop := ∀ c, (card.component c).active = 0

def inputRoutes (card : AudioCard n) : ℕ → Fin n → ℕ
 | 0, _ => 0
 | fuel + 1, c =>
  if inputEndPoint (card.component c).sapmType then 1
  else ((card.sources c).map fun path =>
   if path.connect then inputRoutes card fuel path.source else 0).sum

def outputRoutes (card : AudioCard n) : ℕ → Fin n → ℕ
 | 0, _ => 0
 | fuel + 1, c =>
  if outputEndPoint (card.component c).sapmType then 1
  else ((card.sinks c).map fun path =>
   if path.connect then outputRoutes card fuel path.sink else 0).sum

/-- The numbers of routes fit an `int32_t`. -/
def Fits (card : AudioCard n) (c : Fin n) : Prop :=
 inputRoutes card n c < 2 ^ 31 ∧ outputRoutes card n c < 2 ^ 31

variable {card card' : AudioCard n} {c d : Fin n}

theorem foldlM_addCount {α : Type} (list : List α) (term : α → ℕ) (checked : ℕ → α → Option ℕ)
 (start : ℕ) (small : start < 2 ^ 31)
 (step : ∀ count, ∀ a ∈ list, count < 2 ^ 31 → checked count a =
  if count + term a < 2 ^ 31 then some (count + term a) else none) :
 list.foldlM checked start =
  if start + (list.map term).sum < 2 ^ 31 then some (start + (list.map term).sum) else none := by
 induction list generalizing start with
 | nil =>
  rw [List.map_nil, List.sum_nil, Nat.add_zero, if_pos small]
  rfl
 | cons a rest ih =>
  rw [List.foldlM_cons, step start a List.mem_cons_self small, List.map_cons, List.sum_cons]
  by_cases fits : start + term a < 2 ^ 31
  · rw [if_pos fits]
    change rest.foldlM checked (start + term a) = _
    rw [ih _ fits fun count b hb => step count b (List.mem_cons_of_mem a hb), Nat.add_assoc]
  · rw [if_neg fits, if_neg (by omega)]
    rfl

theorem checked_term (connect : Bool) (count routes : ℕ) (small : count < 2 ^ 31) (more : Option ℕ)
 (hmore : more = if routes < 2 ^ 31 then some routes else none) :
 (if connect then more.bind (addCount count) else some count) =
  if count + (if connect then routes else 0) < 2 ^ 31 then
   some (count + if connect then routes else 0) else none := by
 cases connect with
 | false =>
  change some count = if count + 0 < 2 ^ 31 then some (count + 0) else none
  rw [Nat.add_zero, if_pos small]
 | true =>
  change more.bind (addCount count) = if count + routes < 2 ^ 31 then some (count + routes) else none
  rw [hmore]
  by_cases fits : routes < 2 ^ 31
  · rw [if_pos fits]
    rfl
  · rw [if_neg fits, if_neg (by omega)]
    rfl

variable (rank : Fin n → ℕ)

theorem connectedInput_eq (below : ∀ a b, Route card a b → rank a < rank b)
 (fuel : ℕ) (c : Fin n) (enough : rank c < fuel) :
 card.connectedInputEndPoint fuel c =
  if inputRoutes card fuel c < 2 ^ 31 then some (inputRoutes card fuel c) else none := by
 induction fuel generalizing c with
 | zero => omega
 | succ fuel ih =>
  rw [AudioCard.connectedInputEndPoint, inputRoutes]
  split
  · rfl
  · rw [foldlM_addCount (card.sources c)
     (fun path => if path.connect then inputRoutes card fuel path.source else 0) _ 0 (by decide)]
    · simp only [Nat.zero_add]
    · intro count path hpath small
      obtain ⟨mem, sink⟩ := List.mem_filter.mp hpath
      have lower := below path.source c ⟨path, mem, rfl, of_decide_eq_true sink⟩
      exact checked_term path.connect count _ small _ (ih path.source (by omega))

theorem connectedOutput_eq (below : ∀ a b, Route card a b → rank b < rank a)
 (fuel : ℕ) (c : Fin n) (enough : rank c < fuel) :
 card.connectedOutputEndPoint fuel c =
  if outputRoutes card fuel c < 2 ^ 31 then some (outputRoutes card fuel c) else none := by
 induction fuel generalizing c with
 | zero => omega
 | succ fuel ih =>
  rw [AudioCard.connectedOutputEndPoint, outputRoutes]
  split
  · rfl
  · rw [foldlM_addCount (card.sinks c)
     (fun path => if path.connect then outputRoutes card fuel path.sink else 0) _ 0 (by decide)]
    · simp only [Nat.zero_add]
    · intro count path hpath small
      obtain ⟨mem, source⟩ := List.mem_filter.mp hpath
      have lower := below c path.sink ⟨path, mem, of_decide_eq_true source, rfl⟩
      exact checked_term path.connect count _ small _ (ih path.sink (by omega))

theorem sum_map_pos {α : Type} (list : List α) (term : α → ℕ) :
 0 < (list.map term).sum ↔ ∃ a ∈ list, 0 < term a := by
 induction list with
 | nil => simp
 | cons a rest ih =>
  rw [List.map_cons, List.sum_cons, List.exists_mem_cons_iff, ← ih]
  omega

theorem inputConnected_iff (c : Fin n) : InputConnected card c ↔
 inputEndPoint (card.component c).sapmType = true ∨ ∃ d, Edge card d c ∧ InputConnected card d := by
 constructor
 · rintro ⟨a, end_, path⟩
   rcases ReflTransGen.cases_tail path with rfl | ⟨d, before, edge⟩
   · exact .inl end_
   · exact .inr ⟨d, edge, a, end_, before⟩
 · rintro (end_ | ⟨d, edge, a, end_, before⟩)
   · exact ⟨c, end_, .refl⟩
   · exact ⟨a, end_, before.tail edge⟩

theorem outputConnected_iff (c : Fin n) : OutputConnected card c ↔
 outputEndPoint (card.component c).sapmType = true ∨
  ∃ d, Edge card c d ∧ OutputConnected card d := by
 constructor
 · rintro ⟨b, end_, path⟩
   rcases ReflTransGen.cases_head path with rfl | ⟨d, edge, after⟩
   · exact .inl end_
   · exact .inr ⟨d, edge, b, end_, after⟩
 · rintro (end_ | ⟨d, edge, b, end_, after⟩)
   · exact ⟨c, end_, .refl⟩
   · exact ⟨b, end_, after.head edge⟩

theorem inputRoutes_pos (below : ∀ a b, Route card a b → rank a < rank b)
 (fuel : ℕ) (c : Fin n) (enough : rank c < fuel) :
 0 < inputRoutes card fuel c ↔ InputConnected card c := by
 induction fuel generalizing c with
 | zero => omega
 | succ fuel ih =>
  rw [inputConnected_iff, inputRoutes]
  split
  · rename_i end_
    exact iff_of_true Nat.one_pos (.inl end_)
  · rename_i inner
    rw [sum_map_pos, or_iff_right inner]
    constructor
    · rintro ⟨path, hpath, pos⟩
      obtain ⟨mem, sink⟩ := List.mem_filter.mp hpath
      have sink := of_decide_eq_true sink
      have lower := below path.source c ⟨path, mem, rfl, sink⟩
      split_ifs at pos with connect
      · exact ⟨path.source, ⟨path, mem, connect, rfl, sink⟩, (ih _ (by omega)).mp pos⟩
      · omega
    · rintro ⟨d, ⟨path, mem, connect, rfl, sink⟩, connected⟩
      have lower := below path.source c ⟨path, mem, rfl, sink⟩
      refine ⟨path, List.mem_filter.mpr ⟨mem, decide_eq_true sink⟩, ?_⟩
      rw [if_pos connect]
      exact (ih _ (by omega)).mpr connected

theorem outputRoutes_pos (below : ∀ a b, Route card a b → rank b < rank a)
 (fuel : ℕ) (c : Fin n) (enough : rank c < fuel) :
 0 < outputRoutes card fuel c ↔ OutputConnected card c := by
 induction fuel generalizing c with
 | zero => omega
 | succ fuel ih =>
  rw [outputConnected_iff, outputRoutes]
  split
  · rename_i end_
    exact iff_of_true Nat.one_pos (.inl end_)
  · rename_i inner
    rw [sum_map_pos, or_iff_right inner]
    constructor
    · rintro ⟨path, hpath, pos⟩
      obtain ⟨mem, source⟩ := List.mem_filter.mp hpath
      have source := of_decide_eq_true source
      have lower := below c path.sink ⟨path, mem, source, rfl⟩
      split_ifs at pos with connect
      · exact ⟨path.sink, ⟨path, mem, connect, source, rfl⟩, (ih _ (by omega)).mp pos⟩
      · omega
    · rintro ⟨d, ⟨path, mem, connect, source, rfl⟩, connected⟩
      have lower := below c path.sink ⟨path, mem, source, rfl⟩
      refine ⟨path, List.mem_filter.mpr ⟨mem, decide_eq_true source⟩, ?_⟩
      rw [if_pos connect]
      exact (ih _ (by omega)).mpr connected

def NewPower (card : AudioCard n) (c : Fin n) (power : ℕ) : Prop :=
 (OnPath card c ∧ power = sapmPowerUp) ∨ (¬OnPath card c ∧ power = sapmPowerDown)

theorem powerCheck_generic (inactive : Inactive card) (c : Fin n) :
 card.powerCheck c = (card.genericCheckPower c).map (· % 2 ^ 8) := by
 have zero := inactive c
 unfold AudioCard.powerCheck AudioCard.adcCheckPower AudioCard.dacCheckPower
 rw [if_pos zero, if_pos zero, ite_self, ite_self]

theorem powerCheck_spec (inactive : Inactive card) (acyclic : Acyclic card) (c : Fin n) :
 (Fits card c ∧ ∃ power, card.powerCheck c = some power ∧ NewPower card c power) ∨
  (¬Fits card c ∧ card.powerCheck c = none) := by
 obtain ⟨rank, below, small⟩ := exists_rank acyclic
 obtain ⟨rank', below', small'⟩ := exists_rank (r := flip (Route card)) fun a cycle =>
  acyclic a (transGen_swap.mp cycle)
 rw [Nat.card_eq_fintype_card, Fintype.card_fin] at small small'
 have input := connectedInput_eq rank below n c (small c)
 have output := connectedOutput_eq rank' (fun a b route => below' b a route) n c (small' c)
 have inputs := inputRoutes_pos rank below n c (small c)
 have outputs := outputRoutes_pos rank' (fun a b route => below' b a route) n c (small' c)
 rw [powerCheck_generic inactive, AudioCard.genericCheckPower, input, output]
 by_cases fitsIn : inputRoutes card n c < 2 ^ 31
 · by_cases fitsOut : outputRoutes card n c < 2 ^ 31
   · rw [if_pos fitsIn, if_pos fitsOut]
     refine .inl ⟨⟨fitsIn, fitsOut⟩, _, rfl, ?_⟩
     by_cases zero : inputRoutes card n c = 0 ∨ outputRoutes card n c = 0
     · refine .inr ⟨?_, by rw [if_pos zero]; rfl⟩
       rintro ⟨connected, connected'⟩
       have pos := inputs.mpr connected
       have pos' := outputs.mpr connected'
       omega
     · refine .inl ⟨⟨inputs.mp (by omega), outputs.mp (by omega)⟩, by rw [if_neg zero]; rfl⟩
   · rw [if_pos fitsIn, if_neg fitsOut]
     exact .inr ⟨fun fits => fitsOut fits.2, rfl⟩
 · rw [if_neg fitsIn]
   exact .inr ⟨fun fits => fitsIn fits.1, rfl⟩

variable {power : ℕ}

theorem newPower_unique {power' : ℕ} (h : NewPower card c power) (h' : NewPower card c power') :
 power = power' := by
 rcases h with ⟨on, rfl⟩ | ⟨off, rfl⟩
 · rcases h' with ⟨-, rfl⟩ | ⟨off, -⟩
   · rfl
   · exact absurd on off
 · rcases h' with ⟨on, -⟩ | ⟨-, rfl⟩
   · exact absurd on off
   · rfl

inductive Marked (card : AudioCard n) (starts : List (Fin n)) : Fin n → Prop
 | start {c : Fin n} (mem : c ∈ starts) : Marked card starts c
 | spread {c d : Fin n} {power : ℕ} (before : Marked card starts c)
   (check : NewPower card c power) (turns : power ≠ card.power c)
   (edge : Edge card c d ∨ Edge card d c) (differs : card.power d ≠ power) : Marked card starts d

def next (card : AudioCard n) (c : Fin n) : Option (List (Fin n)) :=
 (card.powerCheck c).map fun power => if power = card.power c then [] else card.differing power c

theorem mem_differing :
 d ∈ card.differing power c ↔ (Edge card c d ∨ Edge card d c) ∧ card.power d ≠ power := by
 unfold AudioCard.differing AudioCard.sources AudioCard.sinks Edge
 simp only [List.mem_append, List.mem_map, List.mem_filter, decide_eq_true_eq, Bool.and_eq_true]
 constructor
 · rintro (⟨path, ⟨⟨mem, sink⟩, connect, differs⟩, rfl⟩ | ⟨path, ⟨⟨mem, source⟩, connect, differs⟩, rfl⟩)
   · exact ⟨.inr ⟨path, mem, connect, rfl, sink⟩, differs⟩
   · exact ⟨.inl ⟨path, mem, connect, source, rfl⟩, differs⟩
 · rintro ⟨⟨path, mem, connect, source, rfl⟩ | ⟨path, mem, connect, rfl, sink⟩, differs⟩
   · exact .inr ⟨path, ⟨⟨mem, source⟩, connect, differs⟩, rfl⟩
   · exact .inl ⟨path, ⟨⟨mem, sink⟩, connect, differs⟩, rfl⟩

section Spreading

variable {starts : List (Fin n)}

theorem reached_marked (inactive : Inactive card) (acyclic : Acyclic card)
 (reached : Reached (next card) starts c) : Marked card starts c := by
 induction reached with
 | start mem => exact .start mem
 | @next a b more before leads mem ih =>
  obtain ⟨power, check, rfl⟩ := Option.map_eq_some_iff.mp leads
  rcases powerCheck_spec inactive acyclic a with ⟨-, power', check', new⟩ | ⟨-, none⟩
  · cases check.symm.trans check'
    split_ifs at mem with same
    · cases mem
    · obtain ⟨edge, differs⟩ := mem_differing.mp mem
      exact .spread ih new same edge differs
  · rw [none] at check
    cases check

theorem marked_reached (inactive : Inactive card) (acyclic : Acyclic card)
 (leads : ∀ c, Reached (next card) starts c → next card c ≠ none) (marked : Marked card starts c) :
 Reached (next card) starts c := by
 induction marked with
 | start mem => exact .start mem
 | @spread c d power before check turns edge differs ih =>
  obtain ⟨more, some⟩ := Option.ne_none_iff_exists'.mp (leads c ih)
  refine .next ih some ?_
  obtain ⟨power', check', rfl⟩ := Option.map_eq_some_iff.mp some
  rcases powerCheck_spec inactive acyclic c with ⟨-, power'', check'', new⟩ | ⟨-, none⟩
  · cases check'.symm.trans check''
    obtain rfl := newPower_unique new check
    rw [if_neg turns]
    exact mem_differing.mpr ⟨edge, differs⟩
  · rw [none] at check'
    cases check'

theorem next_ne_none_iff (inactive : Inactive card) (acyclic : Acyclic card) (c : Fin n) :
 next card c ≠ none ↔ Fits card c := by
 unfold next
 rcases powerCheck_spec inactive acyclic c with ⟨fits, power, check, -⟩ | ⟨excess, none⟩
 · rw [check]
   exact iff_of_true (Option.some_ne_none _) fits
 · rw [none]
   exact iff_of_false (fun h => h rfl) excess

theorem walk_marked (inactive : Inactive card) (acyclic : Acyclic card) (nodup : starts.Nodup) :
 ((∀ c, Marked card starts c → Fits card c) ∧ ∃ result,
  walk (next card) (n + 1) [] starts = some result ∧ ∀ c, c ∈ result ↔ Marked card starts c) ∨
  (¬(∀ c, Marked card starts c → Fits card c) ∧ walk (next card) (n + 1) [] starts = none) := by
 have ends : (∃ result, walk (next card) (n + 1) [] starts = some result) ↔
  ∀ c, Reached (next card) starts c → next card c ≠ none := walk_ends_iff nodup (by simp)
 cases run : walk (next card) (n + 1) [] starts with
 | some result =>
  have leads := ends.mp ⟨result, run⟩
  refine .inl ⟨fun c marked => ?_, result, rfl, fun c => ?_⟩
  · have reached := marked_reached inactive acyclic leads marked
    exact (next_ne_none_iff inactive acyclic c).mp (leads c reached)
  · rw [mem_walk_iff run]
    exact ⟨reached_marked inactive acyclic, marked_reached inactive acyclic leads⟩
 | none =>
  refine .inr ⟨fun fits => ?_, rfl⟩
  obtain ⟨result, run'⟩ := ends.mpr fun c reached =>
   (next_ne_none_iff inactive acyclic c).mpr (fits c (reached_marked inactive acyclic reached))
  rw [run] at run'
  cases run'

end Spreading

theorem mem_powerSeqInsert (seq : AudioSapmType → ℕ) (list : List (Fin n)) :
 d ∈ card.powerSeqInsert seq c list ↔ d = c ∨ d ∈ list := by
 induction list with
 | nil => simp [AudioCard.powerSeqInsert]
 | cons e rest ih =>
  rw [AudioCard.powerSeqInsert]
  split
  · exact List.mem_cons
  · rw [List.mem_cons, ih, List.mem_cons]
    exact or_left_comm

/-- The lists hold the components that turn, of those the walk has passed. -/
structure Holds (card : AudioCard n) (past : List (Fin n)) (lists : AudioCard.PowerLists n) : Prop where
 up : ∀ c, c ∈ lists.upList ↔ c ∈ past ∧
  ∃ power, card.powerCheck c = some power ∧ power ≠ card.power c ∧ power ≠ 0
 down : ∀ c, c ∈ lists.downList ↔ c ∈ past ∧
  ∃ power, card.powerCheck c = some power ∧ power ≠ card.power c ∧ power = 0

variable {past : List (Fin n)} {lists : AudioCard.PowerLists n}

theorem Holds.mem_up (holds : Holds card past lists) (mem : c ∈ past)
 (check : card.powerCheck c = some power) :
 c ∈ lists.upList ↔ power ≠ card.power c ∧ power ≠ 0 := by
 rw [holds.up]
 constructor
 · rintro ⟨-, power', check', h⟩
   cases check.symm.trans check'
   exact h
 · exact fun h => ⟨mem, power, check, h⟩

theorem Holds.mem_down (holds : Holds card past lists) (mem : c ∈ past)
 (check : card.powerCheck c = some power) :
 c ∈ lists.downList ↔ power ≠ card.power c ∧ power = 0 := by
 rw [holds.down]
 constructor
 · rintro ⟨-, power', check', h⟩
   cases check.symm.trans check'
   exact h
 · exact fun h => ⟨mem, power, check, h⟩

theorem Holds.skip (holds : Holds card past lists)
 (stays : ∀ power, card.powerCheck c = some power → power = card.power c) :
 Holds card (past ++ [c]) lists := by
 refine ⟨fun d => ?_, fun d => ?_⟩
 · rw [holds.up, List.mem_append, List.mem_singleton, or_and_right, iff_self_or]
   rintro ⟨rfl, power, check, turns, -⟩
   exact absurd (stays power check) turns
 · rw [holds.down, List.mem_append, List.mem_singleton, or_and_right, iff_self_or]
   rintro ⟨rfl, power, check, turns, -⟩
   exact absurd (stays power check) turns

theorem Holds.turn (holds : Holds card past lists) (check : card.powerCheck c = some power)
 (turns : power ≠ card.power c) : Holds card (past ++ [c]) (card.insertPower lists c power) := by
 have only : ∀ {d power'}, d = c → card.powerCheck d = some power' → power' = power := by
  rintro d power' rfl check'
  exact Option.some.inj (check'.symm.trans check)
 unfold AudioCard.insertPower
 by_cases up : power ≠ 0
 · rw [if_pos up]
   refine ⟨fun d => ?_, fun d => ?_⟩
   · rw [mem_powerSeqInsert, holds.up, List.mem_append, List.mem_singleton]
     constructor
     · rintro (rfl | ⟨old, h⟩)
       · exact ⟨.inr rfl, power, check, turns, up⟩
       · exact ⟨.inl old, h⟩
     · rintro ⟨old | same, h⟩
       · exact .inr ⟨old, h⟩
       · exact .inl same
   · rw [holds.down, List.mem_append, List.mem_singleton, or_and_right, iff_self_or]
     rintro ⟨same, power', check', -, zero⟩
     exact absurd ((only same check').symm.trans zero) up
 · rw [if_neg up]
   refine ⟨fun d => ?_, fun d => ?_⟩
   · rw [holds.up, List.mem_append, List.mem_singleton, or_and_right, iff_self_or]
     rintro ⟨same, power', check', -, nonzero⟩
     exact absurd (only same check' ▸ nonzero) up
   · rw [mem_powerSeqInsert, holds.down, List.mem_append, List.mem_singleton]
     constructor
     · rintro (rfl | ⟨old, h⟩)
       · exact ⟨.inr rfl, power, check, turns, not_not.mp up⟩
       · exact ⟨.inl old, h⟩
     · rintro ⟨old | same, h⟩
       · exact .inr ⟨old, h⟩
       · exact .inl same

theorem powerLoop_walk (card : AudioCard n) (fuel : ℕ) (past todo : List (Fin n))
 (lists : AudioCard.PowerLists n)
 (holds : Holds card past lists) :
 (∃ result lists', walk (next card) fuel past todo = some result ∧
  card.powerLoop fuel past todo lists = some lists' ∧ Holds card result lists') ∨
  (walk (next card) fuel past todo = none ∧ card.powerLoop fuel past todo lists = none) := by
 induction fuel generalizing past todo lists with
 | zero => exact .inr ⟨rfl, rfl⟩
 | succ fuel ih =>
  cases todo with
  | nil => exact .inl ⟨past, lists, rfl, rfl, holds⟩
  | cons c rest =>
   cases check : card.powerCheck c with
   | none =>
    refine .inr ⟨?_, ?_⟩
    · rw [walk, next, check]
      rfl
    · rw [AudioCard.powerLoop, check]
      rfl
   | some power =>
    have leads : next card c =
     some (if power = card.power c then [] else card.differing power c) := by
     rw [next, check]
     rfl
    rw [walk_cons leads, AudioCard.powerLoop, check, Option.bind_some]
    by_cases same : power = card.power c
    · rw [if_pos same, if_pos same, fresh, List.append_nil]
      refine ih _ _ _ (holds.skip fun power' check' => ?_)
      rw [← same]
      exact Option.some.inj (check'.symm.trans check)
    · rw [if_neg same, if_neg same]
      exact ih _ _ _ (holds.turn check same)

theorem seqRun_spec (before after : ℕ) (differ : before ≠ after) (list : List (Fin n))
 (card : AudioCard n) :
 (list.foldl (fun card c => card.setPowerFrom before after c) card).component = card.component ∧
  (list.foldl (fun card c => card.setPowerFrom before after c) card).paths = card.paths ∧
  ∀ d, (list.foldl (fun card c => card.setPowerFrom before after c) card).power d =
   if d ∈ list ∧ 0 ≤ (card.component d).reg ∧ card.power d = before then after
   else card.power d := by
 induction list generalizing card with
 | nil => exact ⟨rfl, rfl, fun d => by simp⟩
 | cons c rest ih =>
  obtain ⟨component, paths, power⟩ := ih (card.setPowerFrom before after c)
  have same : (card.setPowerFrom before after c).component = card.component ∧
   (card.setPowerFrom before after c).paths = card.paths := by
   unfold AudioCard.setPowerFrom
   split
   · exact ⟨rfl, rfl⟩
   · exact ⟨rfl, rfl⟩
  refine ⟨component.trans same.1, paths.trans same.2, fun d => (power d).trans ?_⟩
  rw [same.1]
  unfold AudioCard.setPowerFrom
  by_cases turns : 0 ≤ (card.component c).reg ∧ card.power c = before
  · rw [if_pos turns]
    by_cases here : d = c
    · subst here
      have updated : Function.update card.power d after d = after :=
       Function.update_self d after card.power
      change (if _ ∧ _ ∧ Function.update card.power d after d = before then after
       else Function.update card.power d after d) = _
      rw [if_neg fun h => differ (h.2.2.symm.trans updated), if_pos ⟨List.mem_cons_self, turns⟩]
      exact updated
    · have kept : Function.update card.power c after d = card.power d :=
       Function.update_of_ne here after card.power
      change (if _ ∧ _ ∧ Function.update card.power c after d = before then after
       else Function.update card.power c after d) = _
      simp only [kept, List.mem_cons, here, false_or]
  · rw [if_neg turns]
    by_cases here : d = c
    · subst here
      rw [if_neg fun h => turns h.2, if_neg fun h => turns h.2]
    · simp only [List.mem_cons, here, false_or]

def turned (card : AudioCard n) (lists : AudioCard.PowerLists n) (c : Fin n) : ℕ :=
 if c ∈ lists.upList ∧ 0 ≤ (card.component c).reg ∧
   (if c ∈ lists.downList ∧ 0 ≤ (card.component c).reg ∧ card.power c = sapmPowerUp then sapmPowerDown
    else card.power c) = sapmPowerDown then sapmPowerUp
 else if c ∈ lists.downList ∧ 0 ≤ (card.component c).reg ∧ card.power c = sapmPowerUp then
  sapmPowerDown
 else card.power c

theorem seqRuns_spec (card : AudioCard n) (lists : AudioCard.PowerLists n) :
 ((card.powerDownSeqRun lists.downList).powerUpSeqRun lists.upList).component = card.component ∧
  ((card.powerDownSeqRun lists.downList).powerUpSeqRun lists.upList).paths = card.paths ∧
  ∀ c, ((card.powerDownSeqRun lists.downList).powerUpSeqRun lists.upList).power c =
   turned card lists c := by
 obtain ⟨component, paths, down⟩ :=
  seqRun_spec sapmPowerUp sapmPowerDown (by decide) lists.downList card
 obtain ⟨component', paths', up⟩ := seqRun_spec sapmPowerDown sapmPowerUp (by decide)
  lists.upList (card.powerDownSeqRun lists.downList)
 refine ⟨component'.trans component, paths'.trans paths, fun c => (up c).trans ?_⟩
 unfold turned
 have first : (card.powerDownSeqRun lists.downList).power c = _ := down c
 have same : (card.powerDownSeqRun lists.downList).component = card.component := component
 rw [same]
 simp only [first]

theorem turned_eq {lists : AudioCard.PowerLists n} (register : 0 ≤ (card.component c).reg)
 (binary : card.power c = sapmPowerUp ∨ card.power c = sapmPowerDown) (new : NewPower card c power)
 (up : c ∈ lists.upList ↔ power ≠ card.power c ∧ power ≠ 0)
 (down : c ∈ lists.downList ↔ power ≠ card.power c ∧ power = 0) : turned card lists c = power := by
 unfold turned
 simp only [up, down, register, true_and]
 rcases new with ⟨-, rfl⟩ | ⟨-, rfl⟩
 · rcases binary with h | h
   · rw [h]
     decide
   · rw [h]
     decide
 · rcases binary with h | h
   · rw [h]
     decide
   · rw [h]
     decide

structure Spreads (card t : AudioCard n) (starts : List (Fin n)) : Prop where
 component : t.component = card.component
 paths : t.paths = card.paths
 marked : ∀ c, 0 ≤ (card.component c).reg →
  card.power c = sapmPowerUp ∨ card.power c = sapmPowerDown →
  Marked card starts c → NewPower card c (t.power c)
 rest : ∀ c, ¬Marked card starts c → t.power c = card.power c

variable {starts : List (Fin n)}

theorem powerComponents_spec (card : AudioCard n) (inactive : Inactive card)
 (acyclic : Acyclic card) (nodup : starts.Nodup) :
 ((∀ c, Marked card starts c → Fits card c) ∧
  ∃ t, card.powerComponents starts = some t ∧ Spreads card t starts) ∨
  (¬(∀ c, Marked card starts c → Fits card c) ∧ card.powerComponents starts = none) := by
 have loop := powerLoop_walk card (n + 1) [] starts ⟨[], []⟩ ⟨fun c => by simp, fun c => by simp⟩
 rcases walk_marked inactive acyclic nodup with ⟨fits, result, run, marks⟩ | ⟨excess, run⟩
 · rcases loop with ⟨result', lists, run', loop, holds⟩ | ⟨none, -⟩
   · obtain rfl := Option.some.inj (run.symm.trans run')
     refine .inl ⟨fits, _, by rw [AudioCard.powerComponents, loop]; rfl, ?_⟩
     obtain ⟨component, paths, power⟩ := seqRuns_spec card lists
     refine ⟨component, paths, ?_, ?_⟩
     · intro c register binary marked
       rw [power c]
       rcases powerCheck_spec inactive acyclic c with ⟨-, new, check, hnew⟩ | ⟨excess, -⟩
       · have here := (marks c).mpr marked
         rw [turned_eq register binary hnew (holds.mem_up here check) (holds.mem_down here check)]
         exact hnew
       · exact absurd (fits c marked) excess
     · intro c unmarked
       have notIn : c ∉ result := fun mem => unmarked ((marks c).mp mem)
       have up : c ∉ lists.upList := fun mem => notIn ((holds.up c).mp mem).1
       have down : c ∉ lists.downList := fun mem => notIn ((holds.down c).mp mem).1
       rw [power c, turned, if_neg fun h => up h.1, if_neg fun h => down h.1]
   · rw [run] at none
     cases none
 · rcases loop with ⟨result', lists, run', -⟩ | ⟨-, loop⟩
   · rw [run] at run'
     cases run'
   · refine .inr ⟨excess, ?_⟩
     rw [AudioCard.powerComponents, loop]
     rfl

def changedPath (card : AudioCard n) (kcontrol : ℕ) : Option (ℕ × AudioSapmPath n) :=
 (card.paths.findIdx? fun path => decide (path.kcontrol = some kcontrol)).bind fun i =>
  (card.paths[i]?).bind fun path =>
   if AudioCard.mixerDevice (card.component path.sink).sapmType then some (i, path) else none

/-- What a control change has to do. -/
def Right (card : AudioCard n) (change : ℕ × Bool) : Prop :=
 ∃ t, card.step change = some t ∧ Agrees t

/-- A change does not go wrong: the counts of all it comes to fit, and it comes to each component
with a register that gets on a connected path between end points or leaves it. -/
def Meets (card : AudioCard n) (change : ℕ × Bool) : Prop :=
 ∀ found ∈ changedPath card change.1,
  (∀ c, Marked (card.setConnect found.1 change.2) [found.2.source, found.2.sink] c →
   Fits (card.setConnect found.1 change.2) c) ∧
  ∀ c, 0 ≤ (card.component c).reg →
   Marked (card.setConnect found.1 change.2) [found.2.source, found.2.sink] c ∨
    (OnPath card c ↔ OnPath (card.setConnect found.1 change.2) c)

structure Inv (card : AudioCard n) : Prop where
 inactive : Inactive card
 acyclic : Acyclic card
 agrees : Agrees card

variable {t : AudioCard n}

theorem onPath_congr (component : t.component = card.component)
 (paths : t.paths = card.paths) (c : Fin n) : OnPath t c ↔ OnPath card c := by
 have edges : Edge t = Edge card := by
  unfold Edge
  rw [paths]
 unfold OnPath InputConnected OutputConnected
 rw [edges, component]

theorem binary_of_agrees (agrees : Agrees card) (register : 0 ≤ (card.component c).reg) :
 card.power c = sapmPowerUp ∨ card.power c = sapmPowerDown := by
 by_cases on : OnPath card c
 · exact .inl ((agrees c register).1 on)
 · exact .inr ((agrees c register).2 on)

theorem route_setConnect (i : ℕ) (status : Bool) {a b : Fin n} :
 Route (card.setConnect i status) a b ↔ Route card a b := by
 have ends : (card.setConnect i status).paths.map (fun path => (path.source, path.sink)) =
  card.paths.map fun path => (path.source, path.sink) := by
  change (card.paths.modify i _).map _ = _
  apply List.ext_getElem?
  intro j
  rw [List.getElem?_map, List.getElem?_map, List.getElem?_modify]
  split
  · cases card.paths[j]? with
    | none => rfl
    | some path => rfl
  · cases card.paths[j]? with
    | none => rfl
    | some path => rfl
 have route : ∀ card : AudioCard n, Route card a b ↔
  (a, b) ∈ card.paths.map fun path => (path.source, path.sink) := by
  intro card
  rw [List.mem_map]
  simp only [Route, Prod.mk.injEq]
 rw [route, route, ends]

theorem acyclic_setConnect (acyclic : Acyclic card) (i : ℕ) (status : Bool) :
 Acyclic (card.setConnect i status) := by
 intro c cycle
 apply acyclic c
 exact TransGen.mono (fun a b route => (route_setConnect i status).mp route) c c cycle

theorem powerComponents_none (inactive : Inactive card) (acyclic : Acyclic card) :
 ∃ t, card.powerComponents [] = some t ∧ Spreads card t [] := by
 have none : ∀ c, ¬Marked card [] c := by
  intro c marked
  induction marked with
  | start mem => cases mem
  | spread _ _ _ _ _ ih => exact ih
 rcases powerComponents_spec card inactive acyclic List.nodup_nil with ⟨-, spreads⟩ | ⟨excess, -⟩
 · exact spreads
 · exact absurd (fun c marked => absurd marked (none c)) excess

theorem step_changed (card : AudioCard n) (change : ℕ × Bool) {found : ℕ × AudioSapmPath n}
 (changed : changedPath card change.1 = some found) :
 card.step change = (card.setConnect found.1 change.2).powerComponents
  [found.2.source, found.2.sink] ∧ found.2 ∈ card.paths := by
 unfold changedPath at changed
 obtain ⟨i, index, rest⟩ := Option.bind_eq_some_iff.mp changed
 obtain ⟨path, there, rest⟩ := Option.bind_eq_some_iff.mp rest
 split_ifs at rest with mixer
 cases rest
 refine ⟨?_, List.mem_of_getElem? there⟩
 unfold AudioCard.step AudioCard.mixerUpdatePowerStatus
 rw [index]
 simp only [there, mixer, if_true, Option.map_map]
 exact congrFun (Option.map_id) _

theorem step_unchanged (inactive : Inactive card) (acyclic : Acyclic card) (change : ℕ × Bool)
 (unchanged : changedPath card change.1 = none) :
 ∃ t, card.step change = some t ∧ t.component = card.component ∧ t.paths = card.paths ∧
  ∀ c, t.power c = card.power c := by
 unfold changedPath at unchanged
 unfold AudioCard.step AudioCard.mixerUpdatePowerStatus
 cases index : card.paths.findIdx? fun path => decide (path.kcontrol = some change.1) with
 | none =>
  obtain ⟨t, run, spreads⟩ := powerComponents_none inactive acyclic
  refine ⟨t, by simp only [run]; rfl, spreads.component, spreads.paths, fun c => ?_⟩
  apply spreads.rest
  intro marked
  induction marked with
  | start mem => cases mem
  | spread _ _ _ _ _ ih => exact ih
 | some i =>
  have small := (List.findIdx?_eq_some_iff_getElem.mp index).1
  have there := List.getElem?_eq_getElem small
  rw [index, Option.bind_some, there, Option.bind_some] at unchanged
  split_ifs at unchanged with mixer
  refine ⟨card, ?_, rfl, rfl, fun c => rfl⟩
  simp only [there, if_neg mixer]
  rfl

theorem agrees_congr (component : t.component = card.component)
 (paths : t.paths = card.paths) (power : ∀ c, t.power c = card.power c) :
 Agrees t ↔ Agrees card := by
 apply forall_congr'
 intro c
 rw [component, power c, onPath_congr component paths]

theorem agrees_spreads_iff (card' : AudioCard n)
 (agrees : Agrees card) (component : card'.component = card.component)
 (power : card'.power = card.power) (spreads : Spreads card' t starts) :
 Agrees t ↔ ∀ c, 0 ≤ (card.component c).reg →
  Marked card' starts c ∨ (OnPath card c ↔ OnPath card' c) := by
 have same : t.component = card.component := spreads.component.trans component
 apply forall_congr'
 intro c
 rw [same]
 apply imp_congr_right
 intro register
 have on := onPath_congr spreads.component spreads.paths c
 rw [on]
 have old := agrees c register
 have binary := binary_of_agrees agrees register
 by_cases marked : Marked card' starts c
 · have new := spreads.marked c (by rw [component]; exact register) (by rw [power]; exact binary) marked
   refine iff_of_true ?_ (.inl marked)
   rcases new with ⟨on', eq⟩ | ⟨off, eq⟩
   · exact ⟨fun _ => eq, fun off => absurd on' off⟩
   · exact ⟨fun on' => absurd on' off, fun _ => eq⟩
 have kept : t.power c = card.power c := by rw [spreads.rest c marked, power]
 rw [kept, or_iff_right marked]
 have differ : sapmPowerUp ≠ sapmPowerDown := by decide
 constructor
 · rintro ⟨up, down⟩
   constructor
   · intro before
     by_contra after
     exact differ ((old.1 before).symm.trans (down after))
   · intro after
     by_contra before
     exact differ ((up after).symm.trans (old.2 before))
 · intro h
   rw [← h]
   exact old

theorem ends_nodup (acyclic : Acyclic card) {path : AudioSapmPath n} (mem : path ∈ card.paths) :
 [path.source, path.sink].Nodup := by
 rw [List.nodup_cons, List.mem_singleton]
 refine ⟨fun same => ?_, List.nodup_singleton _⟩
 exact acyclic path.source (.single ⟨path, mem, rfl, same.symm⟩)

theorem right_iff_meets (inv : Inv card)
 (change : ℕ × Bool) : Right card change ↔ Meets card change := by
 unfold Meets
 cases changed : changedPath card change.1 with
 | none =>
  obtain ⟨t, run, component, paths, power⟩ := step_unchanged inv.inactive inv.acyclic change changed
  refine iff_of_true ⟨t, run, (agrees_congr component paths power).mpr inv.agrees⟩ ?_
  rintro found ⟨⟩
 | some found =>
  obtain ⟨run, mem⟩ := step_changed card change changed
  have acyclic := acyclic_setConnect inv.acyclic found.1 change.2
  have spec := powerComponents_spec (card.setConnect found.1 change.2) inv.inactive acyclic
   (ends_nodup inv.acyclic mem)
  rw [← run] at spec
  unfold Right
  rcases spec with ⟨fits, t, run', spreads⟩ | ⟨excess, run'⟩
  · have iff := agrees_spreads_iff (card.setConnect found.1 change.2) inv.agrees rfl rfl spreads
    constructor
    · rintro ⟨t', run'', agrees⟩
      cases run'.symm.trans run''
      rintro found' ⟨⟩
      exact ⟨fits, iff.mp agrees⟩
    · intro h
      exact ⟨t, run', iff.mpr (h found rfl).2⟩
  · refine iff_of_false ?_ fun h => excess (h found rfl).1
    rintro ⟨t, run'', -⟩
    rw [run'] at run''
    cases run''

theorem step_keeps (inv : Inv card) (change : ℕ × Bool) (run : card.step change = some t) :
 t.component = card.component ∧ ∀ a b, Route t a b ↔ Route card a b := by
 cases changed : changedPath card change.1 with
 | none =>
  obtain ⟨t', run', component, paths, -⟩ :=
   step_unchanged inv.inactive inv.acyclic change changed
  cases run.symm.trans run'
  refine ⟨component, fun a b => ?_⟩
  unfold Route
  rw [paths]
 | some found =>
  obtain ⟨run', mem⟩ := step_changed card change changed
  have acyclic := acyclic_setConnect inv.acyclic found.1 change.2
  have spec := powerComponents_spec (card.setConnect found.1 change.2) inv.inactive acyclic
   (ends_nodup inv.acyclic mem)
  rw [← run', run] at spec
  rcases spec with ⟨-, t', same, spreads⟩ | ⟨-, none⟩
  · cases same
    refine ⟨spreads.component, fun a b => ?_⟩
    refine Iff.trans ?_ (route_setConnect found.1 change.2)
    unfold Route
    rw [spreads.paths]
  · cases none

theorem inv_step (inv : Inv card) (change : ℕ × Bool) (right : Right card change)
 (run : card.step change = some t) : Inv t := by
 obtain ⟨component, routes⟩ := step_keeps inv change run
 obtain ⟨t', run', agrees⟩ := right
 cases run.symm.trans run'
 refine ⟨fun c => ?_, fun c cycle => ?_, agrees⟩
 · rw [component]
   exact inv.inactive c
 · exact inv.acyclic c (TransGen.mono (fun a b route => (routes a b).mp route) c c cycle)

theorem newPower_of_check (inactive : Inactive card) (acyclic : Acyclic card)
 (check : card.powerCheck c = some power) : NewPower card c power := by
 rcases powerCheck_spec inactive acyclic c with ⟨-, power', check', new⟩ | ⟨-, none⟩
 · cases check.symm.trans check'
   exact new
 · rw [check] at none
   cases none

theorem acyclic_of_lt (lt : ∀ path ∈ card.paths, path.source < path.sink) : Acyclic card := by
 have below : ∀ {a b}, TransGen (Route card) a b → a < b := by
  intro a b chain
  induction chain with
  | single route =>
   obtain ⟨path, mem, rfl, rfl⟩ := route
   exact lt path mem
  | tail _ route ih =>
   obtain ⟨path, mem, rfl, rfl⟩ := route
   exact ih.trans (lt path mem)
 exact fun c cycle => lt_irrefl c (below cycle)

/-- A converter, a mixer without a register and a speaker, all connected. -/
def bareMixer : AudioCard 3 where
 component := fun c =>
  match c with
  | 0 => ⟨.dac, 0, 0⟩
  | 1 => ⟨.mixer, -1, 0⟩
  | 2 => ⟨.spk, 1, 0⟩
 paths := [⟨0, 1, true, some 7⟩, ⟨1, 2, true, none⟩]
 power := fun c => if c = 1 then 0 else 1

theorem bareMixer_agrees : Agrees bareMixer := by
 have check : ∀ c, bareMixer.powerCheck c = some 1 := by decide
 have power : ∀ c, 0 ≤ (bareMixer.component c).reg → bareMixer.power c = sapmPowerUp := by decide
 intro c register
 rcases newPower_of_check (by unfold Inactive; decide) (acyclic_of_lt (by decide)) (check c) with
  ⟨on, -⟩ | ⟨-, down⟩
 · exact ⟨fun _ => power c register, fun off => absurd on off⟩
 · cases down

/-- Through a sequence of control changes, the power of the components with a register agrees with
the graph after each change exactly if every change comes to what it has to. -/
theorem power_right_iff (card : AudioCard n) (inactive : Inactive card) (acyclic : Acyclic card)
    (agrees : Agrees card) (changes : List (ℕ × Bool)) :
    Along AudioCard.step Right card changes ↔ Along AudioCard.step Meets card changes :=
  along_congr_of_keep (I := Inv) (fun _ change _ inv right run => inv_step inv change right run)
    (fun _ change inv => right_iff_meets inv change) card changes ⟨inactive, acyclic, agrees⟩

theorem power_right_iff_mixer : Along AudioCard.step Right bareMixer [(7, false), (7, true)] ↔
    Along AudioCard.step Meets bareMixer [(7, false), (7, true)] :=
  power_right_iff bareMixer (by unfold Inactive; decide) (acyclic_of_lt (by decide))
    bareMixer_agrees [(7, false), (7, true)]

/-- Disconnecting the mixer leaves the speaker behind it powered. -/
theorem speaker_stays_powered : Inactive bareMixer ∧ Acyclic bareMixer ∧ Agrees bareMixer ∧
    ∃ t, bareMixer.step (7, false) = some t ∧ 0 ≤ (t.component 2).reg ∧
      t.power 2 = sapmPowerUp ∧ ¬OnPath t 2 := by
  have inactive : Inactive bareMixer := by
    unfold Inactive
    decide
  refine ⟨inactive, acyclic_of_lt (by decide), bareMixer_agrees, ?_⟩
  obtain ⟨t, run⟩ := Option.isSome_iff_exists.mp
    (show (bareMixer.step (7, false)).isSome = true by decide)
  have inv : Inv bareMixer := ⟨inactive, acyclic_of_lt (by decide), bareMixer_agrees⟩
  obtain ⟨component, routes⟩ := step_keeps inv (7, false) run
  have acyclic : Acyclic t := fun c cycle =>
    inv.acyclic c (TransGen.mono (fun a b route => (routes a b).mp route) c c cycle)
  have check : (bareMixer.step (7, false)).bind (fun t => t.powerCheck 2) = some 0 := by decide
  have power : (bareMixer.step (7, false)).map (fun t => t.power 2) = some 1 := by decide
  rw [run] at check power
  refine ⟨t, run, ?_, Option.some.inj power, ?_⟩
  · rw [component]
    decide
  · rcases newPower_of_check (fun c => by rw [component]; exact inactive c) acyclic check with
      ⟨-, up⟩ | ⟨off, -⟩
    · cases up
    · exact off

end DriversFramework.AudioSapm
