import Mathlib.Data.Set.Card
import Mathlib.SetTheory.Cardinal.NatCard

namespace FiniteGraphs

universe u
variable {α : Type u}

section Work

variable [DecidableEq α]

/-- The places of a list that are not seen yet, each once. -/
def fresh (seen : List α) : List α → List α
 | [] => []
 | a :: rest => if a ∈ seen then fresh seen rest else a :: fresh (seen ++ [a]) rest

def walk (next : α → Option (List α)) : ℕ → List α → List α → Option (List α)
 | 0, _, _ => none
 | _ + 1, past, [] => some past
 | fuel + 1, past, a :: todo =>
  (next a).bind fun more => walk next fuel (past ++ [a]) (todo ++ fresh (past ++ a :: todo) more)

/-- A place that the walk comes to. -/
inductive Reached (next : α → Option (List α)) (starts : List α) : α → Prop
 | start {a : α} (mem : a ∈ starts) : Reached next starts a
 | next {a b : α} {more : List α} (before : Reached next starts a) (leads : next a = some more)
   (mem : b ∈ more) : Reached next starts b

variable {next : α → Option (List α)} {starts seen past todo result : List α} {a b : α} {fuel : ℕ}

theorem mem_fresh (more : List α) : b ∈ seen ++ fresh seen more ↔ b ∈ seen ∨ b ∈ more := by
 induction more generalizing seen with
 | nil => simp [fresh]
 | cons c more ih =>
  rw [fresh]
  split
  · rename_i old
    rw [ih, List.mem_cons]
    constructor
    · rintro (h | h)
      · exact .inl h
      · exact .inr (.inr h)
    · rintro (h | rfl | h)
      · exact .inl h
      · exact .inl old
      · exact .inr h
  · rw [← List.singleton_append, ← List.append_assoc, ih, List.mem_append, List.mem_singleton,
     List.mem_cons, or_assoc]

theorem nodup_fresh (more : List α) (nodup : seen.Nodup) : (seen ++ fresh seen more).Nodup := by
 induction more generalizing seen with
 | nil => rwa [fresh, List.append_nil]
 | cons c more ih =>
  rw [fresh]
  split
  · exact ih nodup
  · rename_i new
    rw [← List.singleton_append, ← List.append_assoc]
    apply ih
    rw [List.nodup_append]
    refine ⟨nodup, List.nodup_singleton c, ?_⟩
    rintro x hx y hy rfl
    exact new (List.mem_singleton.mp hy ▸ hx)

theorem walk_cons (leads : next a = some todo) (rest : List α) :
 walk next (fuel + 1) past (a :: rest) =
  walk next fuel (past ++ [a]) (rest ++ fresh (past ++ a :: rest) todo) := by
 rw [walk, leads]
 rfl

theorem step_list (past : List α) (a : α) (rest more : List α) :
 past ++ [a] ++ (rest ++ fresh (past ++ a :: rest) more) =
  past ++ a :: rest ++ fresh (past ++ a :: rest) more := by
 simp only [List.append_assoc, List.cons_append, List.nil_append]

theorem walk_sound (run : walk next fuel past todo = some result)
 (reached : ∀ b ∈ past ++ todo, Reached next starts b) : ∀ b ∈ result, Reached next starts b := by
 induction fuel generalizing past todo with
 | zero => cases run
 | succ fuel ih =>
  cases todo with
  | nil =>
   cases run
   exact fun b hb => reached b (List.mem_append_left _ hb)
  | cons a rest =>
   cases leads : next a with
   | none =>
    rw [walk, leads] at run
    cases run
   | some more =>
    rw [walk_cons leads] at run
    apply ih run
    intro b hb
    rw [step_list, mem_fresh] at hb
    rcases hb with hb | hb
    · exact reached b hb
    · exact .next (reached a (List.mem_append_right _ List.mem_cons_self)) leads hb

theorem walk_closed (run : walk next fuel past todo = some result)
 (closed : ∀ a ∈ past, ∃ more, next a = some more ∧ ∀ b ∈ more, b ∈ past ++ todo) :
 (∀ b ∈ past ++ todo, b ∈ result) ∧
  ∀ a ∈ result, ∃ more, next a = some more ∧ ∀ b ∈ more, b ∈ result := by
 induction fuel generalizing past todo with
 | zero => cases run
 | succ fuel ih =>
  cases todo with
  | nil =>
   cases run
   simp only [List.append_nil] at closed ⊢
   exact ⟨fun b hb => hb, closed⟩
  | cons a rest =>
   cases leads : next a with
   | none =>
    rw [walk, leads] at run
    cases run
   | some more =>
    rw [walk_cons leads] at run
    have tail := ih run ?_
    · refine ⟨fun b hb => tail.1 b ?_, tail.2⟩
      rw [step_list, mem_fresh]
      exact .inl hb
    · intro c hc
      rcases List.mem_append.mp hc with hc | hc
      · obtain ⟨more', leads', inside⟩ := closed c hc
        refine ⟨more', leads', fun b hb => ?_⟩
        rw [step_list, mem_fresh]
        exact .inl (inside b hb)
      · obtain rfl := List.mem_singleton.mp hc
        refine ⟨more, leads, fun b hb => ?_⟩
        rw [step_list, mem_fresh]
        exact .inr hb

theorem mem_walk_iff (run : walk next fuel [] starts = some result) :
 b ∈ result ↔ Reached next starts b := by
 constructor
 · exact walk_sound run (fun b hb => .start hb) b
 · have closed := walk_closed run fun a ha => absurd ha List.not_mem_nil
   intro reached
   induction reached with
   | start mem => exact closed.1 _ mem
   | next before leads mem ih =>
    obtain ⟨more, leads', inside⟩ := closed.2 _ ih
    cases leads.symm.trans leads'
    exact inside _ mem

theorem next_of_walk (run : walk next fuel [] starts = some result)
 (reached : Reached next starts a) : next a ≠ none := by
 have closed := walk_closed run fun a ha => absurd ha List.not_mem_nil
 obtain ⟨more, leads, -⟩ := closed.2 a ((mem_walk_iff run).mpr reached)
 rw [leads]
 exact Option.some_ne_none more

theorem walk_ends [Finite α] (nodup : (past ++ todo).Nodup) (enough : Nat.card α < fuel + past.length)
 (reached : ∀ b ∈ past ++ todo, Reached next starts b)
 (leads : ∀ a, Reached next starts a → next a ≠ none) :
 ∃ result, walk next fuel past todo = some result := by
 induction fuel generalizing past todo with
 | zero =>
  have le := (List.nodup_append.mp nodup).1.length_le_natCard
  omega
 | succ fuel ih =>
  cases todo with
  | nil => exact ⟨past, rfl⟩
  | cons a rest =>
   have here := reached a (List.mem_append_right _ List.mem_cons_self)
   obtain ⟨more, leads'⟩ := Option.ne_none_iff_exists'.mp (leads a here)
   rw [walk_cons leads']
   apply ih
   · rw [step_list]
     exact nodup_fresh more nodup
   · rw [List.length_append, List.length_singleton]
     omega
   · intro b hb
     rw [step_list, mem_fresh] at hb
     rcases hb with hb | hb
     · exact reached b hb
     · exact .next here leads' hb

theorem walk_ends_iff [Finite α] (nodup : starts.Nodup) (enough : Nat.card α < fuel) :
 (∃ result, walk next fuel [] starts = some result) ↔
  ∀ a, Reached next starts a → next a ≠ none := by
 constructor
 · rintro ⟨result, run⟩ a reached
   exact next_of_walk run reached
 · exact walk_ends nodup enough fun b hb => .start hb

end Work

section Rank

variable {r : α → α → Prop}

theorem exists_rank [Finite α] (acyclic : ∀ a, ¬Relation.TransGen r a a) :
 ∃ rank : α → ℕ, (∀ a b, r a b → rank a < rank b) ∧ ∀ a, rank a < Nat.card α := by
 let before (a : α) : Set α := { b | Relation.TransGen r b a }
 refine ⟨fun a => (before a).ncard, ?_, ?_⟩
 · intro a b hab
   apply Set.ncard_lt_ncard
   · constructor
     · exact fun c hc => Relation.TransGen.tail hc hab
     · intro all
       exact acyclic a (all (Relation.TransGen.single hab))
   · exact Set.toFinite _
 · intro a
   rw [← Set.ncard_univ]
   apply Set.ncard_lt_ncard
   · constructor
     · exact fun c _ => trivial
     · intro all
       exact acyclic a (all (Set.mem_univ a))
   · exact Set.toFinite _

theorem returns_iff_acyclic [Finite α] {returns : ℕ → α → Prop} (zero : ∀ a, ¬returns 0 a)
 (succ : ∀ fuel a, returns (fuel + 1) a ↔ ∀ b, r a b → returns fuel b) :
 (∀ a, ∃ fuel, returns fuel a) ↔ ∀ a, ¬Relation.TransGen r a a := by
 constructor
 · intro all a cycle
   obtain ⟨fuel, h⟩ := all a
   induction fuel generalizing a with
   | zero => exact zero a h
   | succ fuel ih =>
    obtain ⟨b, edge, rest⟩ := Relation.TransGen.head'_iff.mp cycle
    exact ih b (.tail' rest edge) ((succ fuel a).mp h b edge)
 · intro acyclic a
   obtain ⟨rank, below, -⟩ := exists_rank (r := flip r) fun a cycle =>
    acyclic a (Relation.transGen_swap.mp cycle)
   have enough : ∀ fuel a, rank a < fuel → returns fuel a := by
    intro fuel
    induction fuel with
    | zero => exact fun a less => absurd less (Nat.not_lt_zero _)
    | succ fuel ih =>
     intro a less
     refine (succ fuel a).mpr fun b edge => ih b ?_
     have lower := below b a edge
     omega
   exact ⟨rank a + 1, enough _ a (Nat.lt_succ_self _)⟩

end Rank

end FiniteGraphs
