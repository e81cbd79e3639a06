import Mathlib.Data.List.Induction
import DriversFramework.HcLexer

namespace DriversFramework.HcLexer

open Lexer

def isOct (c : Char) : Bool := '0' ≤ c && c ≤ '7'

inductive IsUnsigned : List Char → ℕ → Prop
 | decimal {c : Char} {digits : List Char} (first : isNum c = true) (nonzero : c ≠ '0')
   (all : ∀ d ∈ digits, isNum d = true) : IsUnsigned (c :: digits) (positional 10 (c :: digits))
 | octal {digits : List Char} (all : ∀ d ∈ digits, isOct d = true) :
   IsUnsigned ('0' :: digits) (positional 8 digits)
 | hex {x : Char} {digits : List Char} (letter : x = 'x' ∨ x = 'X') (some : digits ≠ [])
   (all : ∀ d ∈ digits, isHex d = true) : IsUnsigned ('0' :: x :: digits) (positional 16 digits)
 | binary {digits : List Char} (some : digits ≠ []) (all : ∀ d ∈ digits, isBin d = true) :
   IsUnsigned ('0' :: 'b' :: digits) (positional 2 digits)

inductive IsLiteral : List Char → ℤ → Prop
 | unsigned {s : List Char} {v : ℕ} (body : IsUnsigned s v) : IsLiteral s v
 | plus {s : List Char} {v : ℕ} (body : IsUnsigned s v) : IsLiteral ('+' :: s) v
 | minus {s : List Char} {v : ℕ} (body : IsUnsigned s v) : IsLiteral ('-' :: s) (-v)

structure HeadLiteral (text literal : List Char) (z : ℤ) : Prop where
 isLiteral : IsLiteral literal z
 starts : literal <+: text
 longest : ∀ other w, IsLiteral other w → other <+: text → other.length ≤ literal.length

def hexRun (text : List Char) : List Char :=
 if text.head? = some '0' ∧ (text.tail.head? = some 'x' ∨ text.tail.head? = some 'X') then
  text.tail.tail.takeWhile isHex
 else []

def binRun (text : List Char) : List Char :=
 if text.head? = some '0' ∧ text.tail.head? = some 'b' then text.tail.tail.takeWhile isBin else []

def octRun (text : List Char) : List Char := text.tail.takeWhile isOct

def numRun (text : List Char) : List Char := text.takeWhile isNum

variable {c : Char} {digits more rest s text : List Char} {v : ℕ}

theorem positional_append (base : ℕ) :
 positional base (digits ++ [c]) = positional base digits * base + digitValue c := by
 rw [positional, List.foldl_append]
 rfl

theorem positional_le_append {base : ℕ} (pos : 0 < base) (digits more : List Char) :
 positional base digits ≤ positional base (digits ++ more) := by
 induction more using List.reverseRecOn with
 | nil => rw [List.append_nil]
 | append_singleton more c ih =>
  rw [← List.append_assoc, positional_append]
  have scale := Nat.le_mul_of_pos_right (positional base (digits ++ more)) pos
  omega

theorem isOct_iff : isOct c = true ↔ isNum c = true ∧ digitValue c < 8 := by
 simp only [isOct, isNum, digitValue, Bool.and_eq_true, decide_eq_true_eq]
 constructor
 · rintro ⟨low, high⟩
   have high' : c.toNat ≤ 57 := le_trans (b := 55) high (by decide)
   refine ⟨⟨low, high'⟩, ?_⟩
   rw [if_pos ⟨low, high'⟩]
   have high : c.toNat ≤ 55 := high
   change c.toNat - 48 < 8
   omega
 · rintro ⟨num, small⟩
   rw [if_pos num] at small
   refine ⟨num.1, ?_⟩
   have low : 48 ≤ c.toNat := num.1
   have small : c.toNat - 48 < 8 := small
   change c.toNat ≤ 55
   omega

theorem digitValue_num (num : isNum c = true) : digitValue c < 10 := by
 rw [digitValue, if_pos num]
 have high : c.toNat ≤ 57 := by
  simp only [isNum, Bool.and_eq_true, decide_eq_true_eq] at num
  exact num.2
 change c.toNat - 48 < 10
 omega

theorem digitValue_bin (bin : isBin c = true) : digitValue c < 2 := by
 simp only [isBin, Bool.or_eq_true, decide_eq_true_eq] at bin
 rcases bin with rfl | rfl <;> decide

theorem digitValue_hex (hex : isHex c = true) : digitValue c < 16 := by
 simp only [isHex, Bool.or_eq_true] at hex
 rcases hex with (num | lower) | upper
 · exact Nat.lt_trans (digitValue_num num) (by decide)
 · simp only [Bool.and_eq_true, decide_eq_true_eq] at lower
   have low : 97 ≤ c.toNat := lower.1
   have high : c.toNat ≤ 102 := lower.2
   have other : isNum c = false := by
    rw [isNum, Bool.and_eq_false_iff]
    right
    simp only [decide_eq_false_iff_not]
    intro small
    have small : c.toNat ≤ 57 := small
    omega
   have here : (('a' ≤ c && c ≤ 'z') : Bool) = true := by
    simp only [Bool.and_eq_true, decide_eq_true_eq]
    refine ⟨lower.1, ?_⟩
    change c.toNat ≤ 122
    omega
   rw [digitValue, other, if_neg Bool.false_ne_true, if_pos here]
   change c.toNat - 97 + 10 < 16
   omega
 · simp only [Bool.and_eq_true, decide_eq_true_eq] at upper
   have low : 65 ≤ c.toNat := upper.1
   have high : c.toNat ≤ 70 := upper.2
   have other : isNum c = false := by
    rw [isNum, Bool.and_eq_false_iff]
    right
    simp only [decide_eq_false_iff_not]
    intro small
    have small : c.toNat ≤ 57 := small
    omega
   have above : (('a' ≤ c && c ≤ 'z') : Bool) = false := by
    rw [Bool.and_eq_false_iff]
    left
    simp only [decide_eq_false_iff_not]
    intro large
    have large : 97 ≤ c.toNat := large
    omega
   have here : (('A' ≤ c && c ≤ 'Z') : Bool) = true := by
    simp only [Bool.and_eq_true, decide_eq_true_eq]
    refine ⟨upper.1, ?_⟩
    change c.toNat ≤ 90
    omega
   rw [digitValue, other, if_neg Bool.false_ne_true, above, if_neg Bool.false_ne_true, if_pos here]
   change c.toNat - 65 + 10 < 16
   omega

theorem octal_as_decimal (digits : List Char) (all : ∀ d ∈ digits, isOct d = true) :
 positional 8 digits ≤ positional 10 digits ∧
  (positional 10 digits = positional 8 digits ↔ positional 8 digits < 8) := by
 induction digits using List.reverseRecOn with
 | nil => decide
 | append_singleton digits c ih =>
  have last := (isOct_iff.mp (all c (by simp))).2
  obtain ⟨le, same⟩ := ih fun d mem => all d (List.mem_append_left _ mem)
  rw [positional_append, positional_append]
  refine ⟨by omega, ?_⟩
  constructor
  · intro equal
    omega
  · intro small
    have zero : positional 8 digits = 0 := by omega
    have zero' := same.mpr (by omega)
    omega

def headUnsigned (text : List Char) : Option (List Char × ℕ) :=
 if hexRun text ≠ [] then
  some (text.take 2 ++ hexRun text, positional 16 (hexRun text))
 else if binRun text ≠ [] then
  some (text.take 2 ++ binRun text, positional 2 (binRun text))
 else if text.head? = some '0' then
  some ('0' :: octRun text, positional 8 (octRun text))
 else if numRun text ≠ [] then some (numRun text, positional 10 (numRun text))
 else none

theorem takeWhile_prefix_length (rest : List Char) {p : Char → Bool} (all : ∀ d ∈ digits, p d = true) :
 digits.length ≤ ((digits ++ rest).takeWhile p).length := by
 rw [List.takeWhile_append_of_pos all, List.length_append]
 exact Nat.le_add_right _ _

theorem hexRun_some (some : hexRun text ≠ []) : ∃ x rest, text = '0' :: x :: rest ∧
 (x = 'x' ∨ x = 'X') ∧ hexRun text = rest.takeWhile isHex := by
 have run : hexRun text = if text.head? = Option.some '0' ∧
  (text.tail.head? = Option.some 'x' ∨ text.tail.head? = Option.some 'X') then
   text.tail.tail.takeWhile isHex else [] := rfl
 split_ifs at run with start
 · obtain ⟨zero, letter⟩ := start
   cases text with
   | nil => cases zero
   | cons c text =>
    cases text with
    | nil => simp at letter
    | cons x rest =>
     cases zero
     refine ⟨x, rest, rfl, ?_, run⟩
     simpa using letter
 · exact absurd run some

theorem binRun_some (some : binRun text ≠ []) : ∃ rest, text = '0' :: 'b' :: rest ∧
 binRun text = rest.takeWhile isBin := by
 have run : binRun text = if text.head? = Option.some '0' ∧ text.tail.head? = Option.some 'b' then
  text.tail.tail.takeWhile isBin else [] := rfl
 split_ifs at run with start
 · obtain ⟨zero, letter⟩ := start
   cases text with
   | nil => cases zero
   | cons c text =>
    cases text with
    | nil => cases letter
    | cons x rest =>
     cases zero
     cases letter
     exact ⟨rest, rfl, run⟩
 · exact absurd run some

theorem headUnsigned_isUnsigned (head : headUnsigned text = some (s, v)) :
 IsUnsigned s v ∧ s <+: text := by
 rw [headUnsigned] at head
 split_ifs at head with hex bin zero num
 · obtain ⟨rfl, rfl⟩ := Prod.mk.inj (Option.some.inj head)
   obtain ⟨x, rest, rfl, letter, run⟩ := hexRun_some hex
   refine ⟨.hex letter hex ?_, ?_⟩
   · rw [run]
     exact fun d mem => List.mem_takeWhile_imp mem
   · rw [run]
     exact (List.prefix_append_right_inj ['0', x]).mpr (List.takeWhile_prefix isHex)
 · obtain ⟨rfl, rfl⟩ := Prod.mk.inj (Option.some.inj head)
   obtain ⟨rest, rfl, run⟩ := binRun_some bin
   refine ⟨.binary bin ?_, ?_⟩
   · rw [run]
     exact fun d mem => List.mem_takeWhile_imp mem
   · rw [run]
     exact (List.prefix_append_right_inj ['0', 'b']).mpr (List.takeWhile_prefix isBin)
 · obtain ⟨rfl, rfl⟩ := Prod.mk.inj (Option.some.inj head)
   obtain ⟨rest, rfl⟩ := List.head?_eq_some_iff.mp zero
   exact ⟨.octal fun d mem => List.mem_takeWhile_imp mem,
    List.cons_prefix_cons.mpr ⟨rfl, List.takeWhile_prefix isOct⟩⟩
 · obtain ⟨rfl, rfl⟩ := Prod.mk.inj (Option.some.inj head)
   refine ⟨?_, List.takeWhile_prefix isNum⟩
   cases text with
   | nil => exact absurd rfl num
   | cons c rest =>
    have first : isNum c = true := by
     by_contra other
     exact num (List.takeWhile_cons_of_neg other)
    have nonzero : c ≠ '0' := fun same => zero (congrArg some same)
    rw [numRun, List.takeWhile_cons_of_pos first]
    exact .decimal first nonzero fun d mem => List.mem_takeWhile_imp mem

theorem hexRun_of_num (rest : List Char) (num : isNum c = true) : hexRun ('0' :: c :: rest) = [] := by
 refine if_neg ?_
 rintro ⟨-, letter | letter⟩ <;> cases letter <;> exact absurd num (by decide)

theorem binRun_of_num (rest : List Char) (num : isNum c = true) : binRun ('0' :: c :: rest) = [] := by
 refine if_neg ?_
 rintro ⟨-, letter⟩
 cases letter
 exact absurd num (by decide)

theorem runs_of_nonzero (rest : List Char) (nonzero : c ≠ '0') :
 hexRun (c :: rest) = [] ∧ binRun (c :: rest) = [] := by
 constructor
 · refine if_neg ?_
   rintro ⟨zero, -⟩
   exact nonzero (Option.some.inj zero)
 · refine if_neg ?_
   rintro ⟨zero, -⟩
   exact nonzero (Option.some.inj zero)

theorem headUnsigned_octal (hex : hexRun text = []) (bin : binRun text = [])
 (zero : text.head? = some '0') :
 headUnsigned text = some ('0' :: octRun text, positional 8 (octRun text)) := by
 rw [headUnsigned, hex, bin, if_neg (not_not.mpr rfl), if_neg (not_not.mpr rfl), if_pos zero]

theorem headUnsigned_decimal (nonzero : c ≠ '0') (first : isNum c = true) :
 headUnsigned (c :: rest) = some (numRun (c :: rest), positional 10 (numRun (c :: rest))) := by
 obtain ⟨hex, bin⟩ := runs_of_nonzero rest nonzero
 have zero : ¬(c :: rest).head? = some '0' := fun same => nonzero (Option.some.inj same)
 have some : numRun (c :: rest) ≠ [] := by
  rw [numRun, List.takeWhile_cons_of_pos first]
  exact List.cons_ne_nil _ _
 rw [headUnsigned, hex, bin, if_neg (not_not.mpr rfl), if_neg (not_not.mpr rfl), if_neg zero,
  if_pos some]

theorem headUnsigned_longest (body : IsUnsigned s v) (starts : s <+: text) :
 ∃ s' v', headUnsigned text = some (s', v') ∧ s.length ≤ s'.length := by
 obtain ⟨rest, rfl⟩ := starts
 cases body with
 | @decimal c digits first nonzero all =>
  have all' : ∀ d ∈ c :: digits, isNum d = true := by
   intro d mem
   rcases List.mem_cons.mp mem with rfl | mem
   · exact first
   · exact all d mem
  exact ⟨_, _, headUnsigned_decimal nonzero first, takeWhile_prefix_length rest all'⟩
 | @octal digits all =>
  rw [headUnsigned]
  by_cases hex : hexRun ('0' :: digits ++ rest) ≠ []
  · rw [if_pos hex]
    cases digits with
    | nil => exact ⟨_, _, rfl, by simp⟩
    | cons c digits =>
     have num := (isOct_iff.mp (all c List.mem_cons_self)).1
     exact absurd (hexRun_of_num _ num) hex
  rw [if_neg hex]
  by_cases bin : binRun ('0' :: digits ++ rest) ≠ []
  · rw [if_pos bin]
    cases digits with
    | nil => exact ⟨_, _, rfl, by simp⟩
    | cons c digits =>
     have num := (isOct_iff.mp (all c List.mem_cons_self)).1
     exact absurd (binRun_of_num _ num) bin
  rw [if_neg bin]
  exact ⟨_, _, if_pos rfl, Nat.succ_le_succ (takeWhile_prefix_length rest all)⟩
 | @hex x digits letter some all =>
  have run : hexRun ('0' :: x :: digits ++ rest) = (digits ++ rest).takeWhile isHex := by
   refine if_pos ⟨rfl, ?_⟩
   rcases letter with rfl | rfl
   · exact .inl rfl
   · exact .inr rfl
  have long := takeWhile_prefix_length rest all
  have found : hexRun ('0' :: x :: digits ++ rest) ≠ [] := by
   rw [run]
   intro none
   rw [none] at long
   exact some (List.length_eq_zero_iff.mp (Nat.le_zero.mp long))
  refine ⟨_, _, if_pos found, ?_⟩
  rw [run]
  simpa using long
 | @binary digits some all =>
  have hex : hexRun ('0' :: 'b' :: digits ++ rest) = [] := by
   refine if_neg ?_
   rintro ⟨-, letter | letter⟩ <;> cases letter
  have run : binRun ('0' :: 'b' :: digits ++ rest) = (digits ++ rest).takeWhile isBin :=
   if_pos ⟨rfl, rfl⟩
  have long := takeWhile_prefix_length rest all
  have found : binRun ('0' :: 'b' :: digits ++ rest) ≠ [] := by
   rw [run]
   intro none
   rw [none] at long
   exact some (List.length_eq_zero_iff.mp (Nat.le_zero.mp long))
  rw [headUnsigned, hex, if_neg (not_not.mpr rfl)]
  refine ⟨_, _, if_pos found, ?_⟩
  rw [run]
  simpa using long

theorem isUnsigned_value {w : ℕ} (body : IsUnsigned s v) (body' : IsUnsigned s w) : v = w := by
 have own : ∀ {v : ℕ}, IsUnsigned s v → headUnsigned s = some (s, v) := by
  intro v body
  cases body with
  | @decimal c digits first nonzero all =>
   have run : numRun (c :: digits) = c :: digits := by
    rw [numRun, List.takeWhile_cons_of_pos first, List.takeWhile_eq_self_iff.mpr all]
   rw [headUnsigned_decimal nonzero first, run]
  | @octal digits all =>
   have none : hexRun ('0' :: digits) = [] ∧ binRun ('0' :: digits) = [] := by
    cases digits with
    | nil => exact ⟨rfl, rfl⟩
    | cons c digits =>
     have num := (isOct_iff.mp (all c List.mem_cons_self)).1
     exact ⟨hexRun_of_num digits num, binRun_of_num digits num⟩
   have run : octRun ('0' :: digits) = digits := List.takeWhile_eq_self_iff.mpr all
   rw [headUnsigned_octal none.1 none.2 rfl, run]
  | @hex x digits letter some all =>
   have run : hexRun ('0' :: x :: digits) = digits := by
    refine (if_pos ⟨rfl, ?_⟩).trans (List.takeWhile_eq_self_iff.mpr all)
    rcases letter with rfl | rfl
    · exact .inl rfl
    · exact .inr rfl
   rw [headUnsigned, run]
   exact if_pos some
  | @binary digits some all =>
   have hex : hexRun ('0' :: 'b' :: digits) = [] := by
    refine if_neg ?_
    rintro ⟨-, letter | letter⟩ <;> cases letter
   have run : binRun ('0' :: 'b' :: digits) = digits :=
    (if_pos ⟨rfl, rfl⟩).trans (List.takeWhile_eq_self_iff.mpr all)
   rw [headUnsigned, hex, run, if_neg (not_not.mpr rfl)]
   exact if_pos some
 have same := (own body).symm.trans (own body')
 exact (Prod.mk.inj (Option.some.inj same)).2

theorem isUnsigned_first (body : IsUnsigned s v) : ∃ c rest, s = c :: rest ∧ isNum c = true := by
 cases body with
 | decimal first => exact ⟨_, _, rfl, first⟩
 | octal | hex | binary => exact ⟨_, _, rfl, rfl⟩

theorem isLiteral_value {z w : ℤ} (literal : IsLiteral s z) (literal' : IsLiteral s w) : z = w := by
 have sign : ∀ {c rest v}, (c = '+' ∨ c = '-') → ¬IsUnsigned (c :: rest) v := by
  rintro c rest v signed body
  obtain ⟨d, rest', same, num⟩ := isUnsigned_first body
  obtain ⟨rfl, -⟩ := List.cons.inj same
  rcases signed with rfl | rfl <;> exact absurd num (by decide)
 cases literal with
 | unsigned body =>
  cases literal' with
  | unsigned body' => rw [isUnsigned_value body body']
  | plus => exact absurd body (sign (.inl rfl))
  | minus => exact absurd body (sign (.inr rfl))
 | plus body =>
  cases literal' with
  | unsigned body' => exact absurd body' (sign (.inl rfl))
  | plus body' => rw [isUnsigned_value body body']
 | minus body =>
  cases literal' with
  | unsigned body' => exact absurd body' (sign (.inr rfl))
  | minus body' => rw [isUnsigned_value body body']

def headLiteral (text : List Char) : Option (List Char × ℤ) :=
 if text.head? = some '+' then (headUnsigned text.tail).map fun (s, v) => ('+' :: s, v)
 else if text.head? = some '-' then (headUnsigned text.tail).map fun (s, v) => ('-' :: s, -v)
 else (headUnsigned text).map fun (s, v) => (s, v)

theorem headLiteral_isLiteral {z : ℤ} (head : headLiteral text = some (s, z)) :
 IsLiteral s z ∧ s <+: text := by
 rw [headLiteral] at head
 split_ifs at head with plus minus
 · obtain ⟨rest, rfl⟩ := List.head?_eq_some_iff.mp plus
   obtain ⟨⟨s', v⟩, found, same⟩ := Option.map_eq_some_iff.mp head
   obtain ⟨body, starts⟩ := headUnsigned_isUnsigned found
   cases same
   exact ⟨.plus body, List.cons_prefix_cons.mpr ⟨rfl, starts⟩⟩
 · obtain ⟨rest, rfl⟩ := List.head?_eq_some_iff.mp minus
   obtain ⟨⟨s', v⟩, found, same⟩ := Option.map_eq_some_iff.mp head
   obtain ⟨body, starts⟩ := headUnsigned_isUnsigned found
   cases same
   exact ⟨.minus body, List.cons_prefix_cons.mpr ⟨rfl, starts⟩⟩
 · obtain ⟨⟨s', v⟩, found, same⟩ := Option.map_eq_some_iff.mp head
   obtain ⟨body, starts⟩ := headUnsigned_isUnsigned found
   cases same
   exact ⟨.unsigned body, starts⟩

theorem headLiteral_plus :
 headLiteral ('+' :: rest) = (headUnsigned rest).map fun (s, v) => ('+' :: s, (v : ℤ)) := rfl

theorem headLiteral_minus :
 headLiteral ('-' :: rest) = (headUnsigned rest).map fun (s, v) => ('-' :: s, -(v : ℤ)) := rfl

theorem headLiteral_num (num : isNum c = true) :
 headLiteral (c :: rest) = (headUnsigned (c :: rest)).map fun (s, v) => (s, (v : ℤ)) := by
 have plus : ¬(c :: rest).head? = some '+' := by
  intro same
  cases same
  exact absurd num (by decide)
 have minus : ¬(c :: rest).head? = some '-' := by
  intro same
  cases same
  exact absurd num (by decide)
 rw [headLiteral, if_neg plus, if_neg minus]

theorem headLiteral_longest {z : ℤ} (literal : IsLiteral s z) (starts : s <+: text) :
 ∃ s' z', headLiteral text = some (s', z') ∧ s.length ≤ s'.length := by
 cases literal with
 | unsigned body =>
  obtain ⟨s', v', head, long⟩ := headUnsigned_longest body starts
  obtain ⟨c, rest, rfl, num⟩ := isUnsigned_first body
  obtain ⟨tail, rfl⟩ := starts
  rw [List.cons_append] at head ⊢
  rw [headLiteral_num num, head]
  exact ⟨s', v', rfl, long⟩
 | plus body =>
  obtain ⟨tail, rfl⟩ := starts
  obtain ⟨s', v', head, long⟩ := headUnsigned_longest body (List.prefix_append _ tail)
  rw [List.cons_append, headLiteral_plus, head]
  exact ⟨_, _, rfl, Nat.succ_le_succ long⟩
 | minus body =>
  obtain ⟨tail, rfl⟩ := starts
  obtain ⟨s', v', head, long⟩ := headUnsigned_longest body (List.prefix_append _ tail)
  rw [List.cons_append, headLiteral_minus, head]
  exact ⟨_, _, rfl, Nat.succ_le_succ long⟩

theorem headLiteral_iff {z : ℤ} : HeadLiteral text s z ↔ headLiteral text = some (s, z) := by
 constructor
 · intro h
   obtain ⟨s', z', head, long⟩ := headLiteral_longest h.isLiteral h.starts
   obtain ⟨literal, starts⟩ := headLiteral_isLiteral head
   have short := h.longest s' z' literal starts
   have same : s = s' :=
    (List.prefix_of_prefix_length_le h.starts starts long).eq_of_length (Nat.le_antisymm long short)
   subst same
   rw [head, isLiteral_value h.isLiteral literal]
 · intro head
   obtain ⟨literal, starts⟩ := headLiteral_isLiteral head
   refine ⟨literal, starts, fun other w otherLiteral otherStarts => ?_⟩
   obtain ⟨s', z', head', long⟩ := headLiteral_longest otherLiteral otherStarts
   rw [head] at head'
   cases head'
   exact long

end DriversFramework.HcLexer
