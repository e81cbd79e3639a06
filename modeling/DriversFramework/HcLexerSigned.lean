import DriversFramework.HcLexerNumber

namespace DriversFramework.HcLexer

open Lexer

def sign (negative : Bool) : Char := if negative then '-' else '+'

def signed (negative : Bool) (v : ℕ) : ℤ := if negative then -v else v

def signedBound (negative : Bool) (v : ℕ) : Option ℤ :=
 if negative then if v ≤ 2 ^ 63 then some (-v) else none else bound v

variable {negative : Bool} {c : Char} {text literal digits rest chars white : List Char} {u v : ℕ}
  {fuel : ℕ} {l l' : Lexer}

theorem signedBound_plus (small : v < 2 ^ 63) : signedBound false v = some (v : ℤ) := if_pos small

theorem signedBound_plus_large (large : 2 ^ 63 ≤ v) : signedBound false v = none :=
 if_neg (Nat.not_lt.mpr large)

theorem signedBound_minus (small : v ≤ 2 ^ 63) : signedBound true v = some (-(v : ℤ)) := if_pos small

theorem signedBound_minus_large (large : 2 ^ 63 < v) : signedBound true v = none :=
 if_neg (Nat.not_le.mpr large)

theorem strtoll_sign (all : ∀ d ∈ digits, isNum d = true) :
  strtoll (sign negative :: digits) 10 = signedBound negative (positional 10 digits) := by
 cases negative with
 | false => exact strtoll_plus all
 | true => exact strtoll_minus all

theorem headLiteral_sign : headLiteral (sign negative :: rest) =
   (headUnsigned rest).map fun (s, v) => (sign negative :: s, signed negative v) := by
 cases negative with
 | false => exact headLiteral_plus
 | true => exact headLiteral_minus

theorem isLiteral_sign (body : IsUnsigned literal u) :
  IsLiteral (sign negative :: literal) (signed negative u) := by
 cases negative with
 | false => exact .plus body
 | true => exact .minus body

theorem isUnsigned_of_sign {z : ℤ} (signed : IsLiteral (sign negative :: literal) z) :
  ∃ v, IsUnsigned literal v := by
 cases negative with
 | false =>
  change IsLiteral ('+' :: literal) z at signed
  cases signed with
  | unsigned body =>
   obtain ⟨c, rest, same, num⟩ := isUnsigned_first body
   obtain ⟨rfl, -⟩ := List.cons.inj same
   exact absurd num (by decide)
  | plus body => exact ⟨_, body⟩
 | true =>
  change IsLiteral ('-' :: literal) z at signed
  cases signed with
  | unsigned body =>
   obtain ⟨c, rest, same, num⟩ := isUnsigned_first body
   obtain ⟨rfl, -⟩ := List.cons.inj same
   exact absurd num (by decide)
  | minus body => exact ⟨_, body⟩

theorem positional_zero {base : ℕ} : positional base ('0' :: digits) = positional base digits := by
 rw [positional, List.foldl_cons]
 change List.foldl _ (0 * base + 0) digits = _
 rw [Nat.zero_mul]
 rfl

theorem allOctal_digits (all : AllOctal text) :
  positional 10 (numRun text) = positional 10 (octRun text) := by
 rw [← all, positional_zero]

theorem octal_le_decimal (zero : text.head? = some '0') :
  positional 8 (octRun text) ≤ positional 10 (numRun text) := by
 obtain ⟨rest, rfl⟩ := List.head?_eq_some_iff.mp zero
 have low := (octal_as_decimal (octRun ('0' :: rest))
  fun _ mem => List.mem_takeWhile_imp mem).1
 have starts : octRun ('0' :: rest) = (numRun rest).takeWhile fun c => digitValue c < 8 :=
  octal_digits.symm
 obtain ⟨more, split⟩ := List.takeWhile_prefix (l := numRun rest) fun c => digitValue c < 8
 have longer := positional_le_append (show 0 < 10 by decide) (octRun ('0' :: rest)) more
 rw [starts, split, ← starts] at longer
 rw [numRun_cons (by decide), positional_zero]
 exact Nat.le_trans low longer

theorem allOctal_of_isUnsigned (zero : text.head? = some '0') (body : IsUnsigned (numRun text) u) :
  AllOctal text := by
 obtain ⟨rest, rfl⟩ := List.head?_eq_some_iff.mp zero
 have all : ∀ d ∈ numRun rest, isNum d = true := numRun_all
 have whole : ∀ d ∈ numRun rest, isOct d = true := by
  rw [numRun_cons (by decide)] at body
  generalize numRun rest = more at body all
  cases body with
  | decimal _ nonzero => exact absurd rfl nonzero
  | octal oct => exact oct
  | hex letter =>
   have num := all _ List.mem_cons_self
   rcases letter with rfl | rfl <;> exact absurd num (by decide)
  | binary => exact absurd (all _ List.mem_cons_self) (by decide)
 have run : octRun ('0' :: rest) = numRun rest := by
  have same : (numRun rest).takeWhile (fun c => digitValue c < 8) = numRun rest :=
   List.takeWhile_eq_self_iff.mpr fun d mem => by simpa using (isOct_iff.mp (whole d mem)).2
  rw [octal_digits] at same
  exact same
 rw [AllOctal, run, numRun_cons (by decide)]

theorem accepts_prefixed (head : headUnsigned rest = some (literal, v))
  (long : 1 < literal.length) :
  Accepts (sign negative :: rest) [sign negative, '0'] (some 0) ↔
   if negative then v ≠ 0 else 2 ^ 64 ≤ v := by
 have whole : headLiteral (sign negative :: rest) =
   some (sign negative :: literal, signed negative v) := by
  rw [headLiteral_sign, head]
  rfl
 have body : IsUnsigned ['0'] 0 := .octal (by simp)
 have zero : IsLiteral [sign negative, '0'] (signed negative 0) := isLiteral_sign body
 have other : [sign negative, '0'] ≠ sign negative :: literal := by
  intro same
  rw [← (List.cons.inj same).2] at long
  exact absurd long (by decide)
 have iff : Accepts (sign negative :: rest) [sign negative, '0'] (some 0) ↔
   ¬(0 ≤ signed negative v ∧ signed negative v < 2 ^ 64) := by
  constructor
  · rintro accepts ⟨low, high⟩
    exact other (accepts.2 _ _ whole low high).1
  · intro out
    refine ⟨fun w number => ⟨_, zero, ?_⟩, fun literal' z head' low high => ?_⟩
    · cases number
      cases negative <;> rfl
    · rw [whole] at head'
      cases head'
      exact absurd ⟨low, high⟩ out
 rw [iff]
 cases negative with
 | false =>
  rw [signed, if_neg Bool.false_ne_true, if_neg Bool.false_ne_true]
  omega
 | true =>
  rw [signed, if_pos rfl, if_pos rfl]
  omega

theorem accepts_signed_octal (hex : hexRun rest = []) (bin : binRun rest = [])
  (zero : rest.head? = some '0') :
  Accepts (sign negative :: rest) (sign negative :: numRun rest)
    (signedBound negative (positional 10 (numRun rest))) ↔
   AllOctal rest ∧ positional 8 (octRun rest) < 8 ∨
    if negative then 2 ^ 63 < positional 10 (numRun rest) ∧ positional 8 (octRun rest) ≠ 0
    else 2 ^ 64 ≤ positional 8 (octRun rest) := by
 have head : headLiteral (sign negative :: rest) = some (sign negative :: '0' :: octRun rest,
   signed negative (positional 8 (octRun rest))) := by
  rw [headLiteral_sign, headUnsigned_octal hex bin zero]
  rfl
 have le := octal_le_decimal zero
 have literal : IsLiteral (sign negative :: '0' :: octRun rest)
   (signed negative (positional 8 (octRun rest))) :=
  isLiteral_sign (.octal fun _ mem => List.mem_takeWhile_imp mem)
 have small : AllOctal rest → (positional 10 (numRun rest) = positional 8 (octRun rest) ↔
   positional 8 (octRun rest) < 8) := by
  intro all
  rw [allOctal_digits all]
  exact (octal_as_decimal _ fun _ mem => List.mem_takeWhile_imp mem).2
 -- a number that is read has the value of the octal digits
 have read : ∀ w, Accepts (sign negative :: rest) (sign negative :: numRun rest)
   (signedBound negative (positional 10 (numRun rest))) →
   signedBound negative (positional 10 (numRun rest)) = some w → AllOctal rest ∧
    w % 2 ^ 64 = signed negative (positional 8 (octRun rest)) % 2 ^ 64 := by
  intro w accepts number
  obtain ⟨z, own, same⟩ := accepts.1 w number
  obtain ⟨v, body⟩ := isUnsigned_of_sign own
  have all := allOctal_of_isUnsigned zero body
  rw [AllOctal] at all
  rw [← all] at own
  refine ⟨all, ?_⟩
  rw [same, isLiteral_value own literal]
 have same_value : AllOctal rest → positional 8 (octRun rest) < 8 →
   Accepts (sign negative :: rest) (sign negative :: numRun rest)
    (signedBound negative (positional 10 (numRun rest))) := by
  intro all few
  have same := (small all).mpr few
  rw [same, ← show _ = _ from all]
  have value : signedBound negative (positional 8 (octRun rest)) =
    some (signed negative (positional 8 (octRun rest))) := by
   cases negative with
   | false => exact signedBound_plus (by omega)
   | true => exact signedBound_minus (by omega)
  rw [value]
  refine ⟨fun w number => ⟨_, literal, ?_⟩, fun literal' z head' low high => ?_⟩
  · rw [← Option.some.inj number]
  · rw [head] at head'
    cases head'
    exact ⟨rfl, rfl⟩
 cases negative with
 | false =>
  rw [if_neg Bool.false_ne_true]
  constructor
  · intro accepts
    by_contra out
    have inside : positional 8 (octRun rest) < 2 ^ 64 := by
     by_contra large
     exact out (.inr (Nat.le_of_not_lt large))
    have accepted := (accepts.2 _ _ head (Int.natCast_nonneg _) (Int.ofNat_lt.mpr inside)).2
    have fits : positional 10 (numRun rest) < 2 ^ 63 := bound_isSome.mp accepted
    obtain ⟨all, same⟩ := read _ accepts (signedBound_plus fits)
    have same : (positional 10 (numRun rest) : ℤ) % 2 ^ 64 =
     (positional 8 (octRun rest) : ℤ) % 2 ^ 64 := same
    exact out (.inl ⟨all, (small all).mp (by omega)⟩)
  · rintro (⟨all, few⟩ | large)
    · exact same_value all few
    · rw [signedBound_plus_large (by omega)]
      refine ⟨(fun w number => by cases number), fun literal' z head' low high => ?_⟩
      rw [head] at head'
      cases head'
      have high : (positional 8 (octRun rest) : ℤ) < 2 ^ 64 := high
      omega
 | true =>
  rw [if_pos rfl]
  constructor
  · intro accepts
    by_cases fits : positional 10 (numRun rest) ≤ 2 ^ 63
    · obtain ⟨all, same⟩ := read _ accepts (signedBound_minus fits)
      have same : -(positional 10 (numRun rest) : ℤ) % 2 ^ 64 =
       -(positional 8 (octRun rest) : ℤ) % 2 ^ 64 := same
      exact .inl ⟨all, (small all).mp (by omega)⟩
    refine .inr ⟨Nat.lt_of_not_le fits, fun none => ?_⟩
    have value : signed true (positional 8 (octRun rest)) = 0 := by
     rw [none]
     rfl
    rw [value] at head
    have accepted := (accepts.2 _ _ head (Int.le_refl 0) (by decide)).2
    rw [signedBound_minus_large (Nat.lt_of_not_le fits)] at accepted
    cases accepted
  · rintro (⟨all, few⟩ | ⟨large, some⟩)
    · exact same_value all few
    · rw [signedBound_minus_large large]
      refine ⟨(fun w number => by cases number), fun literal' z head' low high => ?_⟩
      rw [head] at head'
      cases head'
      have low : 0 ≤ -(positional 8 (octRun rest) : ℤ) := low
      omega

theorem positional_pos (digits : List Char) (num : isNum c = true) (nonzero : c ≠ '0') :
  0 < positional 10 (c :: digits) := by
 have first := positional_le_append (show 0 < 10 by decide) [c] digits
 have value : positional 10 [c] = c.toNat - 48 := by
  change 0 * 10 + digitValue c = _
  rw [digitValue, if_pos num, Nat.zero_mul, Nat.zero_add]
  rfl
 have low : 48 ≤ c.toNat := by
  simp only [isNum, Bool.and_eq_true, decide_eq_true_eq] at num
  exact num.1
 have other : c.toNat ≠ 48 := fun same => nonzero (Char.toNat_inj.mp same)
 rw [List.singleton_append] at first
 omega

theorem accepts_signed_decimal (num : isNum c = true) (nonzero : c ≠ '0') :
  Accepts (sign negative :: c :: rest) (sign negative :: numRun (c :: rest))
    (signedBound negative (positional 10 (numRun (c :: rest)))) ↔
   negative ∨ InRange (positional 10 (numRun (c :: rest))) := by
 have head : headLiteral (sign negative :: c :: rest) =
   some (sign negative :: numRun (c :: rest),
    signed negative (positional 10 (numRun (c :: rest)))) := by
  rw [headLiteral_sign, headUnsigned_decimal nonzero num]
  rfl
 have body : IsUnsigned (numRun (c :: rest)) (positional 10 (numRun (c :: rest))) := by
  rw [numRun_cons num]
  exact .decimal num nonzero numRun_all
 have literal : IsLiteral (sign negative :: numRun (c :: rest))
   (signed negative (positional 10 (numRun (c :: rest)))) := isLiteral_sign body
 cases negative with
 | false =>
  rw [or_iff_right Bool.false_ne_true]
  exact accepts_exact literal head
 | true =>
  refine iff_of_true ⟨fun w number => ⟨_, literal, ?_⟩, fun literal' z head' low high => ?_⟩ (.inl rfl)
  · rw [signedBound, if_pos rfl] at number
    split_ifs at number
    rw [← Option.some.inj number]
    rfl
  · rw [head] at head'
    cases head'
    have pos := positional_pos (numRun rest) num nonzero
    rw [← numRun_cons num] at pos
    have low : 0 ≤ -(positional 10 (numRun (c :: rest)) : ℤ) := low
    omega

theorem prefixed_next (some : prefixedValue rest = some v) (text : l.text = rest) :
  numRun rest = ['0'] ∧ (∀ c, l.next 1 = Option.some c → isNum c = false) ∧
   ∃ literal, headUnsigned rest = Option.some (literal, v) ∧ 1 < literal.length := by
 have start : ∃ x more literal, rest = '0' :: x :: more ∧ isNum x = false ∧ isWhite x = false ∧
   headUnsigned rest = Option.some (literal, v) ∧ 1 < literal.length := by
  rw [prefixedValue] at some
  rw [headUnsigned]
  split_ifs at some ⊢ with hex bin
  · obtain ⟨x, more, rfl, letter, -⟩ := hexRun_some hex
    obtain rfl := Option.some.inj some
    refine ⟨x, more, _, rfl, ?_, ?_, rfl, by simp⟩
    · rcases letter with rfl | rfl <;> decide
    · rcases letter with rfl | rfl <;> decide
  · obtain ⟨more, rfl, -⟩ := binRun_some bin
    obtain rfl := Option.some.inj some
    exact ⟨'b', more, _, rfl, by decide, by decide, rfl, by simp⟩
 obtain ⟨x, more, literal, rfl, num, white, head, long⟩ := start
 obtain ⟨-, behind⟩ := getRawChar_of_cons text
 refine ⟨?_, fun c found => ?_, literal, head, long⟩
 · have stop : ¬isNum x = true := by
    rw [num]
    exact Bool.false_ne_true
   rw [numRun_cons (by decide), numRun, List.takeWhile_cons_of_neg stop]
 · change (l.consumeChar.peekChar true).1 = Option.some c at found
   rw [peekChar_of_cons true behind fun _ => white] at found
   cases found
   exact num

theorem signed_right_iff (negative : Bool) (text : l.text = sign negative :: rest) (enough : l.text.length < fuel) :
  NumberRight fuel l ↔ SignedMeets negative l := by
 have nonzero : sign negative ≠ '0' := by
  cases negative <;> decide
 have solid : isWhite (sign negative) = false := by
  cases negative <;> decide
 obtain ⟨-, behind⟩ := getRawChar_of_cons text
 have fewer : l.consumeChar.text.length < fuel := by
  rw [behind]
  rw [text, List.length_cons] at enough
  omega
 have run := number_of_nonzero fuel text nonzero
 have next : l.next (1 + (numRun rest).length) = l.consumeChar.next (numRun rest).length := by
  rw [Nat.add_comm]
  rfl
 rw [SignedMeets, text, List.tail_cons, next]
 rcases lexDigits_next [sign negative] fewer with
  ⟨none, l', white, read, blank, split⟩ |
  ⟨⟨d, some, digit⟩, value, l', w, white, d', eaten, read, blank, num, split⟩
 · rw [behind] at none read split
   rw [read, Option.map_some] at run
   dsimp only at run
   have value : strtoll ([sign negative] ++ numRun rest) 10 =
     signedBound negative (positional 10 (numRun rest)) := strtoll_sign numRun_all
   rw [value] at run
   have parts : l.text = (sign negative :: numRun rest) ++ (white ++ l'.text) := by
    rw [text, List.cons_append, ← split]
   have clean : ∀ c ∈ sign negative :: numRun rest, isWhite c = false := by
    intro c mem
    rcases List.mem_cons.mp mem with rfl | mem
    · exact solid
    · exact not_white_of_num (numRun_all c mem)
   rw [right_iff run parts clean blank, text]
   by_cases lone : numRun rest = []
   · have zero : signedBound negative (positional 10 []) = some 0 := by
      cases negative <;> rfl
     rw [lone, zero]
     refine iff_of_false (not_accepts fun z literal => ?_) fun meets => meets.1 rfl
     obtain ⟨v, body⟩ := isUnsigned_of_sign literal
     obtain ⟨c, more, same, -⟩ := isUnsigned_first body
     cases same
   rw [and_iff_right lone]
   cases prefixed : prefixedValue rest with
   | some v =>
    obtain ⟨digits, -, literal, head, long⟩ := prefixed_next prefixed behind
    have zero : signedBound negative (positional 10 ['0']) = some 0 := by
     cases negative <;> rfl
    rw [digits, zero]
    exact accepts_prefixed head long
   | none =>
    dsimp only
    rw [and_iff_right none]
    have hex : hexRun rest = [] := by
     by_contra some
     rw [prefixedValue, if_pos some] at prefixed
     cases prefixed
    have bin : binRun rest = [] := by
     by_contra some
     rw [prefixedValue, hex, if_neg (not_not.mpr rfl), if_pos some] at prefixed
     cases prefixed
    by_cases zero : rest.head? = some '0'
    · rw [if_pos zero]
      exact accepts_signed_octal hex bin zero
    rw [if_neg zero]
    cases rest with
    | nil => exact absurd rfl lone
    | cons c rest =>
     have num : isNum c = true := by
      by_contra other
      exact lone (List.takeWhile_cons_of_neg other)
     exact accepts_signed_decimal num fun same => zero (congrArg some same)
 · rw [behind] at some split
   rw [read, Option.map_some] at run
   have parts : l.text = (sign negative :: numRun rest) ++ w :: (white ++ d' :: (eaten ++ l'.text)) := by
    rw [text, List.cons_append, ← split]
   refine iff_of_false (not_right run parts blank (not_white_of_num num)) fun meets => ?_
   have other : isNum d = false := by
    cases prefixed : prefixedValue rest with
    | some v =>
     obtain ⟨digits, letter, -⟩ := prefixed_next prefixed behind
     rw [digits] at some
     exact letter d some
    | none =>
     rw [prefixed] at meets
     exact meets.2.1 d some
   rw [digit] at other
   cases other

/-- `LexFromNumber` is right about a number exactly if its value is one that `strtoll` gives, no
digit stands behind white space, and its digits are read in its own radix. -/
theorem number_right_iff {start : Char} (text : l.text = start :: rest)
    (first : isNum start = true ∨ start = '+' ∨ start = '-') (enough : l.text.length < fuel) :
    NumberRight fuel l ↔ NumberMeets l := by
  have head : l.text.head? = some start := by
    rw [text]
    rfl
  rw [NumberMeets, head]
  rcases first with num | rfl | rfl
  · have plus : ¬some start = some '+' := by
      intro same
      cases same
      exact absurd num (by decide)
    have minus : ¬some start = some '-' := by
      intro same
      cases same
      exact absurd num (by decide)
    rw [if_neg plus, if_neg minus]
    by_cases zero : start = '0'
    · subst zero
      by_cases hex : hexRun l.text = []
      · by_cases bin : binRun l.text = []
        · cases rest with
          | nil => exact zero_right_iff text hex bin (by simp) enough
          | cons c rest =>
            by_cases digit : isNum c = true
            · exact octal_right_iff text digit enough
            · refine zero_right_iff text hex bin (fun d same => ?_) enough
              cases same
              exact Bool.eq_false_iff.mpr digit
        · exact binary_right_iff hex bin enough
      · exact hex_right_iff hex enough
    · exact decimal_right_iff text num zero enough
  · rw [if_pos rfl]
    exact signed_right_iff false text enough
  · rw [if_neg (by decide), if_pos rfl]
    exact signed_right_iff true text enough

/-- The number of `0x1F;`. -/
theorem number_right_iff_hex : NumberRight 6 (Lexer.initialized "0x1F;".toList) ↔
      NumberMeets (Lexer.initialized "0x1F;".toList) :=
  number_right_iff rfl (.inl (by decide)) (by decide)

/-- Two numbers with a space between them are read as one. -/
theorem space_in_number : ¬NumberRight 6 (Lexer.initialized "1 2;".toList) := by
  rw [decimal_right_iff (show _ = '1' :: " 2;".toList from rfl) (by decide) (by decide) (by decide)]
  intro meets
  exact absurd (meets.1 '2' (by decide)).1 (by decide)

end DriversFramework.HcLexer
