import DriversFramework.HcLiteral

namespace DriversFramework.HcLexer

open Lexer

/-- The token has the value of the characters it consumed, among which there is no white space (it
may follow them), and a literal whose value fits in 64 bits is accepted. -/
def NumberRight (fuel : ℕ) (l : Lexer) : Prop :=
 ∃ token l' chars white, l.lexFromNumber fuel = some (token, l') ∧
  l.text = chars ++ white ++ l'.text ∧
  (∀ c ∈ chars, isWhite c = false) ∧ (∀ c ∈ white, isWhite c = true) ∧
  (∀ t, token = some t →
   t.type = .number ∧ ∃ z, IsLiteral chars z ∧ (t.numval : ℤ) = z % 2 ^ 64) ∧
  ∀ literal z, HeadLiteral l.text literal z → 0 ≤ z → z < 2 ^ 64 →
   chars = literal ∧ token.isSome

/-- What `strtoll` converts, or more than 64 bits. -/
def InRange (v : ℕ) : Prop := v < 2 ^ 63 ∨ 2 ^ 64 ≤ v

/-- The character that the lexer finds behind white space, after `n` characters. -/
def Lexer.next (l : Lexer) (n : ℕ) : Option Char := ((consumeChar^[n] l).peekChar true).1

def prefixedValue (text : List Char) : Option ℕ :=
 if hexRun text ≠ [] then some (positional 16 (hexRun text))
 else if binRun text ≠ [] then some (positional 2 (binRun text))
 else none

def AllOctal (text : List Char) : Prop := '0' :: octRun text = numRun text

def UnsignedMeets (l : Lexer) : Prop :=
 match prefixedValue l.text with
 | some v => InRange v
 | none =>
  (∀ c, l.next (numRun l.text).length = some c →
   isNum c = false ∧ (numRun l.text = ['0'] → c ≠ 'x' ∧ c ≠ 'X' ∧ c ≠ 'b')) ∧
  if l.text.head? = some '0' then
   2 ^ 64 ≤ positional 8 (octRun l.text) ∨
    AllOctal l.text ∧ positional 8 (octRun l.text) < 2 ^ 63
  else InRange (positional 10 (numRun l.text))

def SignedMeets (negative : Bool) (l : Lexer) : Prop :=
 let digits := l.text.tail
 numRun digits ≠ [] ∧
 match prefixedValue digits with
 | some v => if negative then v ≠ 0 else 2 ^ 64 ≤ v
 | none =>
  (∀ c, l.next (1 + (numRun digits).length) = some c → isNum c = false) ∧
  if digits.head? = some '0' then
   AllOctal digits ∧ positional 8 (octRun digits) < 8 ∨
    if negative then 2 ^ 63 < positional 10 (numRun digits) ∧ positional 8 (octRun digits) ≠ 0
    else 2 ^ 64 ≤ positional 8 (octRun digits)
  else negative ∨ InRange (positional 10 (numRun digits))

def NumberMeets (l : Lexer) : Prop :=
 if l.text.head? = some '+' then SignedMeets false l
 else if l.text.head? = some '-' then SignedMeets true l
 else UnsignedMeets l

variable {c : Char} {digits rest value : List Char} {digit : Char → Bool}

theorem not_white_of_num (num : isNum c = true) : isWhite c = false := by
 by_contra other
 simp only [isWhite, isSpace, Bool.or_eq_false_iff, decide_eq_false_iff_not, not_and_or, not_not]
  at other
 rcases other with ((rfl | rfl) | rfl) | rfl <;> exact absurd num (by decide)

theorem consumeChar_text : ∀ {digits : List Char} {l : Lexer},
 l.text = digits ++ rest → (consumeChar^[digits.length] l).text = rest := by
 intro digits
 induction digits with
 | nil => exact fun text => text
 | cons c digits ih =>
  intro l text
  obtain ⟨-, behind⟩ := getRawChar_of_cons text
  exact ih behind

theorem lexDigits_run {skipSpace : Bool} (visible : ∀ c, digit c = true → isWhite c = false) :
 ∀ (digits : List Char) {fuel : ℕ} {l : Lexer} {value : List Char}, l.text = digits ++ rest →
  (∀ d ∈ digits, digit d = true) →
  lexDigits skipSpace digit (fuel + digits.length) l value =
   lexDigits skipSpace digit fuel (consumeChar^[digits.length] l) (value ++ digits) := by
 intro digits
 induction digits with
 | nil =>
  intro fuel l value _ _
  rw [List.append_nil]
  rfl
 | cons c digits ih =>
  intro fuel l value text all
  have here := all c List.mem_cons_self
  obtain ⟨-, behind⟩ := getRawChar_of_cons text
  rw [List.length_cons, ← Nat.add_assoc, lexDigits,
   peekChar_of_cons skipSpace text fun _ => visible c here]
  dsimp only
  rw [if_pos here, consumeChar_filled, ih behind fun d mem => all d (List.mem_cons_of_mem _ mem),
   List.append_assoc]
  rfl

theorem lexDigits_total (digit : Char → Bool) : ∀ (fuel : ℕ) {l : Lexer} (value : List Char),
 l.text.length < fuel →
 ∃ value' l' eaten, lexDigits true digit fuel l value = some (value', l') ∧
  l.text = eaten ++ l'.text := by
 intro fuel
 induction fuel with
 | zero => exact fun _ enough => absurd enough (Nat.not_lt_zero _)
 | succ fuel ih =>
  intro l value enough
  obtain ⟨white, -, -, text, head⟩ := peekChar_text (l := l) true
  rw [lexDigits]
  cases peek : l.peekChar true with
  | mk next l₁ =>
   rw [peek] at text head
   cases next with
   | none => exact ⟨value, l₁, white, rfl, text⟩
   | some c =>
    dsimp only
    by_cases here : digit c = true
    · obtain ⟨rest, text₁, -⟩ := head c rfl
      obtain ⟨-, behind⟩ := getRawChar_of_cons text₁
      have shorter : l₁.consumeChar.text.length < fuel := by
       rw [behind]
       rw [text, text₁, List.length_append, List.length_cons] at enough
       omega
      obtain ⟨value', l', eaten, run, text₂⟩ := ih (value ++ [c]) shorter
      rw [if_pos here]
      refine ⟨value', l', white ++ c :: eaten, run, ?_⟩
      rw [text, text₁, ← behind, text₂, List.append_assoc, List.cons_append]
    · rw [if_neg here]
      exact ⟨value, l₁, white, rfl, text⟩

theorem lexDigits_stop {fuel : ℕ} {l : Lexer} (value : List Char) (enough : l.text.length < fuel + 1)
 (stop : ∀ c, l.text.head? = some c → isNum c = false) :
 ((∀ c, (l.peekChar true).1 = some c → isNum c = false) ∧
  ∃ l' white, lexDigits true isNum (fuel + 1) l value = some (value, l') ∧
   (∀ c ∈ white, isWhite c = true) ∧ l.text = white ++ l'.text) ∨
 ((∃ c, (l.peekChar true).1 = some c ∧ isNum c = true) ∧
  ∃ value' l' w white c eaten, lexDigits true isNum (fuel + 1) l value = some (value', l') ∧
   isWhite w = true ∧ isNum c = true ∧ l.text = w :: (white ++ c :: (eaten ++ l'.text))) := by
 obtain ⟨white, blank, -, text, head⟩ := peekChar_text (l := l) true
 rw [lexDigits]
 cases peek : l.peekChar true with
 | mk next l₁ =>
  rw [peek] at text head
  cases next with
  | none => exact .inl ⟨(fun c none => by cases none), l₁, white, rfl, blank, text⟩
  | some c =>
   dsimp only
   by_cases num : isNum c = true
   · obtain ⟨rest, text₁, -⟩ := head c rfl
     obtain ⟨-, behind⟩ := getRawChar_of_cons text₁
     cases white with
     | nil =>
      rw [text₁] at text
      exact absurd num (by rw [stop c (by rw [text]; rfl)]; exact Bool.false_ne_true)
     | cons w white =>
      have shorter : l₁.consumeChar.text.length < fuel := by
       rw [behind]
       rw [text, text₁, List.length_append, List.length_cons, List.length_cons] at enough
       omega
      obtain ⟨value', l', eaten, run, text₂⟩ :=
       lexDigits_total isNum fuel (value ++ [c]) shorter
      rw [if_pos num]
      refine .inr ⟨⟨c, rfl, num⟩, value', l', w, white, c, eaten, run,
       blank w List.mem_cons_self, num, ?_⟩
      rw [text, text₁, ← behind, text₂, List.cons_append]
   · rw [if_neg num]
     refine .inl ⟨fun d same => ?_, l₁, white, rfl, blank, text⟩
     cases same
     exact Bool.eq_false_iff.mpr num

theorem head_dropWhile (text : List Char) (c : Char)
 (head : (text.dropWhile digit).head? = some c) : digit c = false := by
 have stop := List.head?_dropWhile_not digit text
 rw [head] at stop
 simpa using stop

theorem lexDigits_next {fuel : ℕ} {l : Lexer} (value : List Char) (enough : l.text.length < fuel) :
 ((∀ c, l.next (numRun l.text).length = some c → isNum c = false) ∧
  ∃ l' white, lexDigits true isNum fuel l value = some (value ++ numRun l.text, l') ∧
   (∀ c ∈ white, isWhite c = true) ∧ l.text = numRun l.text ++ (white ++ l'.text)) ∨
 ((∃ c, l.next (numRun l.text).length = some c ∧ isNum c = true) ∧
  ∃ value' l' w white c eaten, lexDigits true isNum fuel l value = some (value', l') ∧
   isWhite w = true ∧ isNum c = true ∧
   l.text = numRun l.text ++ w :: (white ++ c :: (eaten ++ l'.text))) := by
 have split : l.text = numRun l.text ++ l.text.dropWhile isNum :=
  (List.takeWhile_append_dropWhile).symm
 have lengths := congrArg List.length split
 rw [List.length_append] at lengths
 obtain ⟨fuel, rfl⟩ : ∃ more, fuel = more + 1 + (numRun l.text).length :=
  ⟨fuel - (numRun l.text).length - 1, by omega⟩
 rw [lexDigits_run (fun _ => not_white_of_num) (numRun l.text) split
  fun d mem => List.mem_takeWhile_imp mem, Lexer.next]
 have behind := consumeChar_text split
 have stop : ∀ c, (consumeChar^[(numRun l.text).length] l).text.head? = some c →
  isNum c = false := by
  rw [behind]
  exact head_dropWhile l.text
 have enough' : (consumeChar^[(numRun l.text).length] l).text.length < fuel + 1 := by
  rw [behind]
  omega
 rcases lexDigits_stop (value ++ numRun l.text) enough' stop with
  ⟨none, l', white, run, blank, text⟩ | ⟨more, value', l', w, white, c, eaten, run, blank, num, text⟩
 · refine .inl ⟨none, l', white, run, blank, ?_⟩
   rw [← text, behind]
   exact split
 · refine .inr ⟨more, value', l', w, white, c, eaten, run, blank, num, ?_⟩
   rw [← text, behind]
   exact split

theorem lexDigits_exact {fuel : ℕ} {l : Lexer} (visible : ∀ c, digit c = true → isWhite c = false)
 (enough : l.text.length < fuel) :
 ∃ l', lexDigits false digit fuel l [] = some (l.text.takeWhile digit, l') ∧
  l.text = l.text.takeWhile digit ++ l'.text := by
 have split : l.text = l.text.takeWhile digit ++ l.text.dropWhile digit :=
  (List.takeWhile_append_dropWhile).symm
 have lengths := congrArg List.length split
 rw [List.length_append] at lengths
 obtain ⟨fuel, rfl⟩ : ∃ more, fuel = more + 1 + (l.text.takeWhile digit).length :=
  ⟨fuel - (l.text.takeWhile digit).length - 1, by omega⟩
 rw [lexDigits_run visible (l.text.takeWhile digit) split fun d mem => List.mem_takeWhile_imp mem,
  List.nil_append]
 have behind := consumeChar_text split
 obtain ⟨white, -, none, text, head⟩ :=
  peekChar_text (l := consumeChar^[(l.text.takeWhile digit).length] l) false
 rw [lexDigits]
 rw [none rfl, List.nil_append, behind] at text
 cases peek : (consumeChar^[(l.text.takeWhile digit).length] l).peekChar false with
 | mk next l₁ =>
  rw [peek] at text head
  cases next with
  | none =>
   refine ⟨l₁, rfl, ?_⟩
   rw [← text]
   exact split
  | some c =>
   obtain ⟨rest, text₁, -⟩ := head c rfl
   have stop : digit c = false := by
    refine head_dropWhile l.text c ?_
    rw [text, text₁]
    rfl
   dsimp only
   rw [stop]
   refine ⟨l₁, rfl, ?_⟩
   rw [← text]
   exact split

def Accepts (text chars : List Char) (v : Option ℤ) : Prop :=
 (∀ w, v = some w → ∃ z, IsLiteral chars z ∧ w % 2 ^ 64 = z % 2 ^ 64) ∧
 ∀ literal z, headLiteral text = some (literal, z) → 0 ≤ z → z < 2 ^ 64 →
  chars = literal ∧ v.isSome

variable {fuel : ℕ} {l l' : Lexer} {v : Option ℤ} {chars white front back : List Char}

theorem solid_eq {chars' white' : List Char} (solid : ∀ c ∈ chars, isWhite c = false)
 (blank : ∀ c ∈ white, isWhite c = true) (solid' : ∀ c ∈ chars', isWhite c = false)
 (blank' : ∀ c ∈ white', isWhite c = true) (same : chars ++ white = chars' ++ white') :
 chars = chars' := by
 have own : ∀ {chars white : List Char}, (∀ c ∈ chars, isWhite c = false) →
  (∀ c ∈ white, isWhite c = true) → (chars ++ white).takeWhile (!isWhite ·) = chars := by
  intro chars white solid blank
  have none : white.takeWhile (!isWhite ·) = [] := by
   cases white with
   | nil => rfl
   | cons w white => exact List.takeWhile_cons_of_neg (by simp [blank w List.mem_cons_self])
  rw [List.takeWhile_append_of_pos (fun c mem => by simp [solid c mem]), none, List.append_nil]
 rw [← own solid blank, same, own solid' blank']

theorem right_iff (run : l.number fuel = some (v, l')) (text : l.text = chars ++ (white ++ l'.text))
 (solid : ∀ c ∈ chars, isWhite c = false) (blank : ∀ c ∈ white, isWhite c = true) :
 NumberRight fuel l ↔ Accepts l.text chars v := by
 have value : ∀ w : ℤ, ((w % 2 ^ 64).toNat : ℤ) = w % 2 ^ 64 := fun w => by omega
 constructor
 · rintro ⟨token, l₁, chars', white', lexed, text', solid', blank', sound, complete⟩
   rw [lexFromNumber, run] at lexed
   obtain ⟨rfl, rfl⟩ := Prod.mk.inj (Option.some.inj lexed)
   rw [← List.append_assoc, text'] at text
   have same := solid_eq solid' blank' solid blank (List.append_cancel_right text)
   subst same
   refine ⟨fun w number => ?_, fun literal z head low high => ?_⟩
   · subst number
     obtain ⟨-, z, literal, numval⟩ := sound _ rfl
     refine ⟨z, literal, ?_⟩
     rw [← numval]
     exact (value w).symm
   · have accepted := complete literal z (headLiteral_iff.mpr head) low high
     rw [Option.isSome_map] at accepted
     exact accepted
 · rintro ⟨sound, complete⟩
   refine ⟨_, l', chars, white, by rw [lexFromNumber, run]; rfl, ?_, solid, blank, ?_, ?_⟩
   · rw [List.append_assoc]
     exact text
   · intro t made
     obtain ⟨w, rfl, rfl⟩ := Option.map_eq_some_iff.mp made
     obtain ⟨z, literal, same⟩ := sound w rfl
     exact ⟨rfl, z, literal, (value w).trans same⟩
   · intro literal z head low high
     have accepted := complete literal z (headLiteral_iff.mp head) low high
     rw [Option.isSome_map]
     exact accepted

theorem not_right {w d : Char} {inner : List Char} (run : l.number fuel = some (v, l'))
 (text : l.text = front ++ w :: (inner ++ d :: (back ++ l'.text))) (blank : isWhite w = true)
 (solid : isWhite d = false) : ¬NumberRight fuel l := by
 rintro ⟨token, l₁, chars, white, lexed, text', solid', blank', -⟩
 rw [lexFromNumber, run] at lexed
 obtain ⟨-, rfl⟩ := Prod.mk.inj (Option.some.inj lexed)
 have whole : chars ++ white ++ l'.text = front ++ w :: (inner ++ d :: back) ++ l'.text := by
  rw [← text', text]
  simp
 have same := List.append_cancel_right whole
 have inside : ∀ more : List Char, white = more ++ w :: (inner ++ d :: back) → False := by
  rintro more rfl
  have mem := blank' d (by simp)
  rw [solid] at mem
  cases mem
 rcases List.append_eq_append_iff.mp same with ⟨more, rfl, tail⟩ | ⟨more, rfl, tail⟩
 · exact inside more tail
 · cases more with
   | nil => exact inside [] tail.symm
   | cons b more =>
    obtain ⟨rfl, -⟩ := List.cons.inj tail
    have clean := solid' w (by simp)
    rw [blank] at clean
    cases clean

def bound (v : ℕ) : Option ℤ := if v < 2 ^ 63 then some v else none

theorem bound_isSome {v : ℕ} : (bound v).isSome = true ↔ v < 2 ^ 63 := by
 rw [bound]
 split_ifs with small
 · exact iff_of_true rfl small
 · exact iff_of_false Bool.false_ne_true small

variable {x : Char} {base : ℕ} {text : List Char}

theorem strtoll_unsigned (plus : value.head? ≠ some '+') (minus : value.head? ≠ some '-') :
 strtoll value base = bound (positional base (value.takeWhile fun c => digitValue c < base)) := by
 have sign : ¬(value.head? = some '-' ∨ value.head? = some '+') := by
  rintro (same | same)
  · exact minus same
  · exact plus same
 rw [strtoll, bound]
 simp only [if_neg sign, if_neg minus]
 split_ifs <;> first | rfl | omega

theorem strtoll_digits (all : ∀ d ∈ digits, digitValue d < base) (small : base ≤ 36) :
 strtoll digits base = bound (positional base digits) := by
 have no : ∀ c, digits.head? = some c → digitValue c < base := by
  intro c head
  exact all c (List.mem_of_head? head)
 rw [strtoll_unsigned, List.takeWhile_eq_self_iff.mpr (by simpa using all)]
 · intro plus
   have low := no '+' plus
   change 36 < base at low
   omega
 · intro minus
   have low := no '-' minus
   change 36 < base at low
   omega

theorem strtoll_plus (all : ∀ d ∈ digits, isNum d = true) :
 strtoll ('+' :: digits) 10 = bound (positional 10 digits) := by
 have run : digits.takeWhile (fun c => digitValue c < 10) = digits :=
  List.takeWhile_eq_self_iff.mpr fun d mem => by simpa using digitValue_num (all d mem)
 have minus : ¬('+' :: digits).head? = some '-' :=
  fun same => absurd (Option.some.inj same) (by decide)
 have sign : ('+' :: digits).head? = some '-' ∨ ('+' :: digits).head? = some '+' := .inr rfl
 rw [strtoll, bound]
 simp only [if_pos sign, if_neg minus, List.tail_cons, run]
 split_ifs <;> first | rfl | omega

theorem strtoll_minus (all : ∀ d ∈ digits, isNum d = true) :
 strtoll ('-' :: digits) 10 =
  if positional 10 digits ≤ 2 ^ 63 then some (-(positional 10 digits : ℤ)) else none := by
 have run : digits.takeWhile (fun c => digitValue c < 10) = digits :=
  List.takeWhile_eq_self_iff.mpr fun d mem => by simpa using digitValue_num (all d mem)
 have minus : ('-' :: digits).head? = some '-' := rfl
 have sign : ('-' :: digits).head? = some '-' ∨ ('-' :: digits).head? = some '+' := .inl rfl
 rw [strtoll]
 simp only [if_pos sign, if_pos minus, List.tail_cons, run]
 split_ifs <;> first | rfl | omega

theorem accepts_exact {v : ℕ} (literal : IsLiteral chars v)
 (head : headLiteral text = some (chars, (v : ℤ))) :
 Accepts text chars (bound v) ↔ InRange v := by
 constructor
 · intro accepts
   by_contra out
   have fits : v < 2 ^ 64 ∧ 2 ^ 63 ≤ v := by
    rw [InRange] at out
    omega
   have accepted := (accepts.2 chars v head (by omega) (by omega)).2
   have small := bound_isSome.mp accepted
   omega
 · intro range
   refine ⟨fun w number => ⟨v, literal, ?_⟩, fun literal' z head' low high => ?_⟩
   · rw [bound] at number
     split_ifs at number
     rw [← Option.some.inj number]
   · rw [head] at head'
     cases head'
     refine ⟨rfl, bound_isSome.mpr ?_⟩
     rcases range with small | large
     · exact small
     · omega

theorem number_of_nonzero (fuel : ℕ) (text : l.text = c :: rest) (nonzero : c ≠ '0') :
 l.number fuel = (lexDigits true isNum fuel l.consumeChar [c]).map
  fun (value, l) => (strtoll value 10, l) := by
 rw [Lexer.number, (getRawChar_of_cons text).1]
 exact if_neg nonzero

theorem numRun_cons (num : isNum c = true) : numRun (c :: rest) = c :: numRun rest :=
 List.takeWhile_cons_of_pos num

theorem numRun_all : ∀ d ∈ numRun rest, isNum d = true :=
 fun _ mem => List.mem_takeWhile_imp mem

theorem prefixedValue_none (hex : hexRun rest = []) (bin : binRun rest = []) :
 prefixedValue rest = none := by
 rw [prefixedValue, hex, bin, if_neg (not_not.mpr rfl), if_neg (not_not.mpr rfl)]

theorem all_num_cons (rest : List Char) (num : isNum c = true) : ∀ d ∈ c :: numRun rest, isNum d = true := by
 intro d mem
 rcases List.mem_cons.mp mem with rfl | mem
 · exact num
 · exact numRun_all d mem

theorem decimal_right_iff (text : l.text = c :: rest) (num : isNum c = true) (nonzero : c ≠ '0')
 (enough : l.text.length < fuel) : NumberRight fuel l ↔ UnsignedMeets l := by
 obtain ⟨hex, bin⟩ := runs_of_nonzero rest nonzero
 have head : ¬(c :: rest).head? = some '0' := fun same => nonzero (Option.some.inj same)
 rw [UnsignedMeets, text, prefixedValue_none hex bin, if_neg head, numRun_cons num]
 dsimp only
 obtain ⟨-, behind⟩ := getRawChar_of_cons text
 have fewer : l.consumeChar.text.length < fuel := by
  rw [behind]
  rw [text, List.length_cons] at enough
  omega
 have next : l.next (c :: numRun rest).length = l.consumeChar.next (numRun rest).length := rfl
 have one : ¬c :: numRun rest = ['0'] := fun same => nonzero (List.cons.inj same).1
 have run := number_of_nonzero fuel text nonzero
 rw [next]
 rcases lexDigits_next [c] fewer with
  ⟨none, l', white, read, blank, split⟩ |
  ⟨⟨d, some, digit⟩, value, l', w, white, d', eaten, read, blank, solid, split⟩
 · rw [behind] at none read split
   rw [read] at run
   have all := all_num_cons rest num
   have value : strtoll ([c] ++ numRun rest) 10 = bound (positional 10 (c :: numRun rest)) :=
    strtoll_digits (fun d mem => digitValue_num (all d mem)) (by decide)
   rw [Option.map_some] at run
   dsimp only at run
   rw [value] at run
   have parts : l.text = (c :: numRun rest) ++ (white ++ l'.text) := by
    rw [text, List.cons_append, ← split]
   rw [right_iff run parts (fun d mem => not_white_of_num (all d mem)) blank, text,
    accepts_exact (.unsigned (.decimal num nonzero numRun_all))]
   · constructor
     · exact fun range => ⟨fun d some => ⟨none d some, fun same => absurd same one⟩, range⟩
     · exact fun meets => meets.2
   · rw [headLiteral_num num, headUnsigned_decimal nonzero num, numRun_cons num]
     rfl
 · rw [behind] at some split
   rw [read] at run
   have parts : l.text = (c :: numRun rest) ++ w :: (white ++ d' :: (eaten ++ l'.text)) := by
    rw [text, List.cons_append, ← split]
   refine iff_of_false (not_right run parts blank (not_white_of_num solid)) fun meets => ?_
   have other := (meets.1 d some).1
   rw [digit] at other
   cases other

theorem prefixed_right_iff {v : ℕ} (base : ℕ) (text : l.text = '0' :: x :: rest)
 (visible : ∀ c, digit c = true → isWhite c = false) (letter : isWhite x = false)
 (number : ∀ l', l.consumeChar.peekChar true = (some x, l') →
  l.number fuel = (lexDigits false digit fuel l'.consumeChar []).map
   fun (value, l) => (strtoll value base, l))
 (values : ∀ c, digit c = true → digitValue c < base) (small : base ≤ 36)
 (literal : IsUnsigned ('0' :: x :: rest.takeWhile digit) v)
 (same : v = positional base (rest.takeWhile digit))
 (head : headUnsigned l.text = some ('0' :: x :: rest.takeWhile digit, v))
 (enough : l.text.length < fuel) : NumberRight fuel l ↔ InRange v := by
 obtain ⟨-, behind⟩ := getRawChar_of_cons text
 obtain ⟨-, behind'⟩ := getRawChar_of_cons behind
 have run := number _ (peekChar_of_cons true behind fun _ => letter)
 rw [consumeChar_filled] at run
 have fewer : l.consumeChar.consumeChar.text.length < fuel := by
  rw [behind']
  rw [text, List.length_cons, List.length_cons] at enough
  omega
 obtain ⟨l', read, split⟩ := lexDigits_exact visible fewer
 rw [behind'] at read split
 have all : ∀ d ∈ rest.takeWhile digit, digit d = true := fun d mem => List.mem_takeWhile_imp mem
 rw [read, Option.map_some] at run
 dsimp only at run
 rw [strtoll_digits (fun d mem => values d (all d mem)) small, ← same] at run
 have parts : l.text = ('0' :: x :: rest.takeWhile digit) ++ ([] ++ l'.text) := by
  rw [text, List.nil_append, List.cons_append, List.cons_append, ← split]
 have solid : ∀ d ∈ '0' :: x :: rest.takeWhile digit, isWhite d = false := by
  intro d mem
  rcases List.mem_cons.mp mem with rfl | mem
  · decide
  · rcases List.mem_cons.mp mem with rfl | mem
    · exact letter
    · exact visible d (all d mem)
 rw [right_iff run parts solid (by simp), text, accepts_exact (.unsigned literal)]
 rw [headLiteral_num (by decide), ← text, head]
 rfl

theorem number_of_zero_last (text : l.text = '0' :: rest)
 (peek : l.consumeChar.peekChar true = (none, l')) : l.number fuel = some (some 0, l') := by
 rw [Lexer.number, (getRawChar_of_cons text).1]
 dsimp only
 rw [if_pos rfl, peek]

theorem number_of_zero (fuel : ℕ) (text : l.text = '0' :: rest)
 (peek : l.consumeChar.peekChar true = (some c, l')) :
 l.number fuel =
  if isNum c then (lexDigits true isNum fuel l' []).map fun (value, l) => (strtoll value 8, l)
  else if c = 'x' ∨ c = 'X' then
   (lexDigits false isHex fuel l'.consumeChar []).map fun (value, l) => (strtoll value 16, l)
  else if c = 'b' then
   (lexDigits false isBin fuel l'.consumeChar []).map fun (value, l) => (strtoll value 2, l)
  else some (some 0, l') := by
 rw [Lexer.number, (getRawChar_of_cons text).1]
 dsimp only
 rw [if_pos rfl, peek]

theorem not_white_of_hex (hex : isHex c = true) : isWhite c = false := by
 by_contra other
 simp only [isWhite, isSpace, Bool.or_eq_false_iff, decide_eq_false_iff_not, not_and_or, not_not]
  at other
 rcases other with ((rfl | rfl) | rfl) | rfl <;> exact absurd hex (by decide)

theorem not_white_of_bin (bin : isBin c = true) : isWhite c = false := by
 simp only [isBin, Bool.or_eq_true, decide_eq_true_eq] at bin
 rcases bin with rfl | rfl <;> decide

theorem hex_right_iff (some : hexRun l.text ≠ []) (enough : l.text.length < fuel) :
 NumberRight fuel l ↔ UnsignedMeets l := by
 have value : prefixedValue l.text = Option.some (positional 16 (hexRun l.text)) := if_pos some
 rw [UnsignedMeets, value]
 have head : headUnsigned l.text = Option.some (_, positional 16 (hexRun l.text)) := if_pos some
 have literal := (headUnsigned_isUnsigned head).1
 obtain ⟨x, rest, text, letter, run⟩ := hexRun_some some
 rw [run] at head literal ⊢
 rw [text] at head literal
 refine prefixed_right_iff 16 text (fun _ => not_white_of_hex) ?_ ?_
  (fun _ => digitValue_hex) (by decide) literal rfl (by rw [text]; exact head) enough
 · rcases letter with rfl | rfl <;> decide
 · intro l' peek
   rw [number_of_zero fuel text peek]
   rcases letter with rfl | rfl <;> rfl

theorem binary_right_iff (none : hexRun l.text = []) (some : binRun l.text ≠ [])
 (enough : l.text.length < fuel) : NumberRight fuel l ↔ UnsignedMeets l := by
 have value : prefixedValue l.text = Option.some (positional 2 (binRun l.text)) := by
  rw [prefixedValue, none, if_neg (not_not.mpr rfl), if_pos some]
 rw [UnsignedMeets, value]
 have head : headUnsigned l.text =
  Option.some (l.text.take 2 ++ binRun l.text, positional 2 (binRun l.text)) := by
  rw [headUnsigned, none, if_neg (not_not.mpr rfl), if_pos some]
 have literal := (headUnsigned_isUnsigned head).1
 obtain ⟨rest, text, run⟩ := binRun_some some
 rw [run] at head literal ⊢
 rw [text] at head literal
 refine prefixed_right_iff 2 text (fun _ => not_white_of_bin) (by decide) ?_
  (fun _ => digitValue_bin) (by decide) literal rfl (by rw [text]; exact head) enough
 intro l' peek
 rw [number_of_zero fuel text peek]
 rfl

theorem lexDigits_filled {skipSpace : Bool} :
 lexDigits skipSpace digit fuel l.filled value = lexDigits skipSpace digit fuel l value := by
 cases fuel with
 | zero => rfl
 | succ fuel => rw [lexDigits, lexDigits, peekChar_filled]

theorem octal_digits : (numRun rest).takeWhile (fun c => digitValue c < 8) = rest.takeWhile isOct := by
 rw [numRun, List.takeWhile_takeWhile]
 congr 1
 funext c
 rw [Bool.eq_iff_iff, isOct_iff]
 simp [and_comm]

theorem accepts_octal (hex : hexRun text = []) (bin : binRun text = [])
 (zero : text.head? = some '0') :
 Accepts text (numRun text) (bound (positional 8 (octRun text))) ↔
  2 ^ 64 ≤ positional 8 (octRun text) ∨ AllOctal text ∧ positional 8 (octRun text) < 2 ^ 63 := by
 have head : headLiteral text = some ('0' :: octRun text, (positional 8 (octRun text) : ℤ)) := by
  have plain := headUnsigned_octal hex bin zero
  obtain ⟨rest, rfl⟩ := List.head?_eq_some_iff.mp zero
  rw [headLiteral_num (by decide), plain]
  rfl
 by_cases all : AllOctal text
 · have literal : IsLiteral ('0' :: octRun text) (positional 8 (octRun text) : ℕ) :=
    .unsigned (.octal fun _ mem => List.mem_takeWhile_imp mem)
   have same : numRun text = '0' :: octRun text := all.symm
   rw [same, accepts_exact literal head, InRange]
   simp only [all, true_and]
   exact or_comm
 simp only [all, false_and, or_false]
 constructor
 · intro accepts
   by_contra small
   have accepted := accepts.2 _ _ head (by omega) (by omega)
   exact all accepted.1.symm
 · intro large
   refine ⟨fun w number => ?_, fun literal z head' low high => ?_⟩
   · rw [bound, if_neg (by omega)] at number
     cases number
   · rw [head] at head'
     cases head'
     omega

theorem octal_right_iff (text : l.text = '0' :: c :: rest) (num : isNum c = true)
 (enough : l.text.length < fuel) : NumberRight fuel l ↔ UnsignedMeets l := by
 have hex := hexRun_of_num rest num
 have bin := binRun_of_num rest num
 obtain ⟨-, behind⟩ := getRawChar_of_cons text
 have fewer : l.consumeChar.text.length < fuel := by
  rw [behind]
  rw [text, List.length_cons] at enough
  omega
 have zero : isNum '0' = true := by decide
 have digits : numRun l.text = '0' :: numRun (c :: rest) := by
  rw [text, numRun_cons zero]
 have one : ¬numRun l.text = ['0'] := by
  rw [digits, numRun_cons num]
  simp
 have next : l.next (numRun l.text).length = l.consumeChar.next (numRun (c :: rest)).length := by
  rw [digits]
  rfl
 have run := number_of_zero fuel text
  (peekChar_of_cons true behind fun _ => not_white_of_num num)
 rw [if_pos num, lexDigits_filled] at run
 have meets : UnsignedMeets l ↔
  (∀ c, l.next (numRun l.text).length = some c → isNum c = false ∧
   (numRun l.text = ['0'] → c ≠ 'x' ∧ c ≠ 'X' ∧ c ≠ 'b')) ∧
  Accepts l.text (numRun l.text) (bound (positional 8 (octRun l.text))) := by
  rw [accepts_octal (by rw [text]; exact hex) (by rw [text]; exact bin) (by rw [text]; rfl)]
  rw [UnsignedMeets, prefixedValue_none (by rw [text]; exact hex) (by rw [text]; exact bin)]
  dsimp only
  rw [if_pos (by rw [text]; rfl)]
 rw [meets, next]
 rcases lexDigits_next [] fewer with
  ⟨none, l', white, read, blank, split⟩ |
  ⟨⟨d, some, digit⟩, value, l', w, white, d', eaten, read, blank, solid, split⟩
 · rw [behind] at none read split
   rw [read, Option.map_some] at run
   dsimp only at run
   have value : strtoll ([] ++ numRun (c :: rest)) 8 = bound (positional 8 (octRun l.text)) := by
    have plus : (numRun (c :: rest)).head? ≠ Option.some '+' := by
     rw [numRun_cons num]
     intro same
     cases same
     exact absurd num (by decide)
    have minus : (numRun (c :: rest)).head? ≠ Option.some '-' := by
     rw [numRun_cons num]
     intro same
     cases same
     exact absurd num (by decide)
    rw [List.nil_append, strtoll_unsigned plus minus, octal_digits, octRun, text, List.tail_cons]
   rw [value] at run
   have parts : l.text = numRun l.text ++ (white ++ l'.text) := by
    rw [digits, List.cons_append, ← split]
    exact text
   rw [right_iff run parts (fun d mem => not_white_of_num (numRun_all d mem)) blank]
   constructor
   · exact fun accepts => ⟨fun d some => ⟨none d some, fun same => absurd same one⟩, accepts⟩
   · exact fun both => both.2
 · rw [behind] at some split
   rw [read] at run
   have parts : l.text = numRun l.text ++ w :: (white ++ d' :: (eaten ++ l'.text)) := by
    rw [digits, List.cons_append, ← split]
    exact text
   refine iff_of_false (not_right run parts blank (not_white_of_num solid)) fun both => ?_
   have other := (both.1 d some).1
   rw [digit] at other
   cases other

theorem not_accepts (no : ∀ z, ¬IsLiteral chars z) : ¬Accepts text chars (some 0) := by
 intro accepts
 obtain ⟨z, literal, -⟩ := accepts.1 0 rfl
 exact no z literal

theorem letter_not_literal (other : isNum x = false) (z : ℤ) :
 ¬IsLiteral ['0', x] z := by
 intro literal
 obtain ⟨s, w, head, long⟩ := headLiteral_longest literal (List.prefix_refl _)
 rw [headLiteral_num (by decide)] at head
 have hex : hexRun ['0', x] = [] := by
  rw [hexRun]
  split_ifs <;> rfl
 have bin : binRun ['0', x] = [] := by
  rw [binRun]
  split_ifs <;> rfl
 have oct : isOct x = false := by
  rw [Bool.eq_false_iff]
  intro oct
  rw [(isOct_iff.mp oct).1] at other
  cases other
 have run : octRun ['0', x] = [] := List.takeWhile_cons_of_neg (by rw [oct]; exact Bool.false_ne_true)
 rw [headUnsigned_octal hex bin rfl, run] at head
 cases head
 simp at long

theorem letter_not_right (text : l.text = '0' :: rest)
 (peek : l.consumeChar.peekChar true = (some x, l')) (letter : isWhite x = false)
 (other : isNum x = false) (none : ∀ more, rest = x :: more → more.takeWhile digit = [])
 (visible : ∀ c, digit c = true → isWhite c = false)
 (run : l.number fuel = (lexDigits false digit fuel l'.consumeChar []).map
  fun (value, l) => (strtoll value base, l))
 (enough : l.text.length < fuel) : ¬NumberRight fuel l := by
 obtain ⟨-, behind⟩ := getRawChar_of_cons text
 obtain ⟨white, blank, -, split, head⟩ := peekChar_text (l := l.consumeChar) true
 rw [peek] at split head
 obtain ⟨more, text', -⟩ := head x rfl
 obtain ⟨-, behind'⟩ := getRawChar_of_cons text'
 rw [behind, text'] at split
 have fewer : l'.consumeChar.text.length < fuel := by
  rw [behind']
  rw [text, split, List.length_cons, List.length_append, List.length_cons] at enough
  omega
 obtain ⟨l₁, read, split'⟩ := lexDigits_exact visible fewer
 rw [behind'] at read split'
 rw [read, Option.map_some] at run
 cases white with
 | nil =>
  have nothing := none more split
  rw [nothing] at run split'
  have parts : l.text = ['0', x] ++ ([] ++ l₁.text) := by
   rw [text, split, split']
   rfl
  have solid : ∀ c ∈ ['0', x], isWhite c = false := by
   intro c mem
   rcases List.mem_cons.mp mem with rfl | mem
   · decide
   · rw [List.mem_singleton.mp mem]
     exact letter
  have value : strtoll [] base = some 0 := strtoll_unsigned (by simp) (by simp)
  dsimp only at run
  rw [value] at run
  rw [right_iff run parts solid (by simp)]
  exact not_accepts (letter_not_literal other)
 | cons w white =>
  have parts : l.text = ['0'] ++ w :: (white ++ x :: (more.takeWhile digit ++ l₁.text)) := by
   rw [text, split, ← split']
   rfl
  exact not_right run parts (blank w List.mem_cons_self) letter

theorem zero_right_iff (text : l.text = '0' :: rest) (hex : hexRun l.text = [])
 (bin : binRun l.text = []) (stop : ∀ c, rest.head? = some c → isNum c = false)
 (enough : l.text.length < fuel) : NumberRight fuel l ↔ UnsignedMeets l := by
 obtain ⟨-, behind⟩ := getRawChar_of_cons text
 have none : numRun rest = [] ∧ octRun l.text = [] := by
  rw [text]
  cases rest with
  | nil => exact ⟨rfl, rfl⟩
  | cons c rest =>
   have other := stop c rfl
   refine ⟨List.takeWhile_cons_of_neg (by rw [other]; exact Bool.false_ne_true),
    List.takeWhile_cons_of_neg fun oct => ?_⟩
   rw [(isOct_iff.mp oct).1] at other
   cases other
 have zero : isNum '0' = true := by decide
 have digits : numRun l.text = ['0'] := by
  rw [text, numRun_cons zero, none.1]
 have octal : AllOctal l.text := by
  rw [AllOctal, none.2, digits]
 have meets : UnsignedMeets l ↔ ∀ c, (l.consumeChar.peekChar true).1 = some c →
  isNum c = false ∧ c ≠ 'x' ∧ c ≠ 'X' ∧ c ≠ 'b' := by
  have head : l.text.head? = some '0' := by
   rw [text]
   rfl
  rw [UnsignedMeets, prefixedValue_none hex bin]
  dsimp only
  rw [if_pos head, none.2, digits]
  constructor
  · intro both c some
    obtain ⟨num, letters⟩ := both.1 c some
    exact ⟨num, letters rfl⟩
  · intro both
    refine ⟨fun c some => ⟨(both c some).1, fun _ => (both c some).2⟩, .inr ⟨octal, by decide⟩⟩
 have accepts : Accepts l.text ['0'] (some 0) := by
  have plain : headLiteral l.text = some (['0'], ((0 : ℕ) : ℤ)) := by
   have head := headUnsigned_octal hex bin (by rw [text]; rfl)
   rw [none.2] at head
   rw [text, headLiteral_num (by decide), ← text, head]
   rfl
  have body : IsUnsigned ['0'] 0 := .octal (by simp)
  have literal : IsLiteral ['0'] (0 : ℕ) := .unsigned body
  exact (accepts_exact literal plain).mpr (.inl (by decide))
 have alone : ∀ c ∈ ['0'], isWhite c = false := by
  intro c mem
  rw [List.mem_singleton.mp mem]
  decide
 rw [meets]
 obtain ⟨white, blank, -, split, head⟩ := peekChar_text (l := l.consumeChar) true
 cases peek : l.consumeChar.peekChar true with
 | mk next l₁ =>
  rw [peek, behind] at split
  have parts : l.text = ['0'] ++ (white ++ l₁.text) := by
   rw [text, split]
   rfl
  cases next with
  | none =>
   rw [right_iff (number_of_zero_last text peek) parts alone blank]
   exact iff_of_true accepts fun c some => by cases some
  | some c =>
   rw [peek] at head
   obtain ⟨more, text₁, visible⟩ := head c rfl
   dsimp only at text₁ ⊢
   have run := number_of_zero fuel text peek
   have solid := visible rfl
   by_cases num : isNum c = true
   · rw [if_pos num] at run
     refine iff_of_false ?_ fun meets => absurd (meets c rfl).1 (by rw [num]; exact Bool.noConfusion)
     cases white with
     | nil =>
      have other := stop c (by rw [split, text₁]; rfl)
      rw [num] at other
      cases other
     | cons w white =>
      obtain ⟨fuel, rfl⟩ := Nat.exists_eq_succ_of_ne_zero (Nat.ne_of_gt (Nat.zero_lt_of_lt enough))
      obtain ⟨-, behind₁⟩ := getRawChar_of_cons text₁
      have fewer : l₁.consumeChar.text.length < fuel := by
       rw [behind₁]
       rw [text, split, text₁, List.length_cons, List.length_append, List.length_cons,
        List.length_cons] at enough
       omega
      obtain ⟨value, l', eaten, read, split₁⟩ :=
       lexDigits_total isNum fuel ([] ++ [c]) fewer
      have step : lexDigits true isNum (fuel + 1) l₁ [] = some (value, l') := by
       rw [lexDigits, peekChar_of_cons true text₁ fun _ => solid]
       dsimp only
       rw [if_pos num, consumeChar_filled]
       exact read
      rw [step] at run
      have whole : l.text = ['0'] ++ w :: (white ++ c :: (eaten ++ l'.text)) := by
       rw [text, split, text₁, ← behind₁, split₁]
       rfl
      exact not_right run whole (blank w List.mem_cons_self) solid
   rw [if_neg num] at run
   have other : isNum c = false := Bool.eq_false_iff.mpr num
   by_cases letter : c = 'x' ∨ c = 'X'
   · rw [if_pos letter] at run
     refine iff_of_false ?_ fun meets => ?_
     · refine letter_not_right text peek solid other ?_ (fun _ => not_white_of_hex) run enough
       rintro more rfl
       have found : hexRun l.text = more.takeWhile isHex := by
        rw [text]
        refine if_pos ⟨rfl, ?_⟩
        rcases letter with rfl | rfl
        · exact .inl rfl
        · exact .inr rfl
       rw [← found, hex]
     · obtain ⟨-, x, X, -⟩ := meets c rfl
       rcases letter with rfl | rfl
       · exact x rfl
       · exact X rfl
   rw [if_neg letter] at run
   by_cases binary : c = 'b'
   · rw [if_pos binary] at run
     refine iff_of_false ?_ fun meets => (meets c rfl).2.2.2 binary
     refine letter_not_right text peek solid other ?_ (fun _ => not_white_of_bin) run enough
     rintro more rfl
     have found : binRun l.text = more.takeWhile isBin := by
      rw [text, binary]
      exact if_pos ⟨rfl, rfl⟩
     rw [← found, bin]
   rw [if_neg binary] at run
   rw [right_iff run parts alone blank]
   refine iff_of_true accepts fun d same => ?_
   cases same
   exact ⟨other, fun x => letter (.inl x), fun X => letter (.inr X), binary⟩

end DriversFramework.HcLexer
