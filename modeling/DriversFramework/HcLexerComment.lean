import DriversFramework.HcLexer

namespace DriversFramework.HcLexer

/-- The first `*/` of what follows the opening stands behind `inside`. -/
def FirstEnd (body inside back : List Char) : Prop :=
 body = inside ++ '*' :: '/' :: back ∧ ¬['*', '/'] <:+: inside ++ ['*']

/-- The comment ends at its first `*/`, and without one it is an error. -/
def CommentRight (fuel : ℕ) (l : Lexer) (body : List Char) : Prop :=
 (∀ inside back, FirstEnd body inside back →
  ∃ l', l.processComment fuel = some (true, l') ∧ l'.text = back) ∧
 (¬['*', '/'] <:+: body → ∃ l', l.processComment fuel = some (false, l'))

def stripped (s : List Char) : List Char := s.filter fun c => !isSpace c

def OddRun (s : List Char) : Prop := (s.reverse.takeWhile (· = '*')).length % 2 = 1

def Cut (s : List Char) : Prop := ∃ front tail, s = front ++ eof :: tail ∧ ¬OddRun front

def Slashed (s : List Char) : Prop :=
 ∃ front tail, s = front ++ '/' :: tail ∧ OddRun front ∧ ¬Cut front

def CommentMeets (body : List Char) : Prop :=
 (∀ inside back, FirstEnd body inside back →
  ¬Cut (stripped inside) ∧ ¬Slashed (stripped inside) ∧ ¬OddRun (stripped inside)) ∧
 (¬['*', '/'] <:+: body → ¬Slashed (stripped body))

instance (s : List Char) : Decidable (OddRun s) :=
 inferInstanceAs (Decidable (_ = 1))

variable {front tail rest s : List Char} {c : Char}

theorem oddRun_append : OddRun (front ++ [c]) ↔ ¬OddRun front ∧ c = '*' := by
 rw [OddRun, List.reverse_append, List.reverse_singleton, List.singleton_append]
 by_cases star : c = '*'
 · rw [List.takeWhile_cons_of_pos (by simpa using star), List.length_cons, OddRun]
   constructor
   · intro odd
     exact ⟨by omega, star⟩
   · rintro ⟨odd, -⟩
     omega
 · rw [List.takeWhile_cons_of_neg (by simpa using star)]
   simp [star]

theorem cut_append_left (cut : Cut front) : Cut (front ++ tail) := by
 obtain ⟨a, b, rfl, even⟩ := cut
 exact ⟨a, b ++ tail, by simp, even⟩

theorem cut_append : Cut (front ++ [c]) ↔ Cut front ∨ c = eof ∧ ¬OddRun front := by
 constructor
 · rintro ⟨a, b, split, even⟩
   rcases List.eq_nil_or_concat b with rfl | ⟨b, d, rfl⟩
   · obtain ⟨rfl, same⟩ := List.append_inj' split rfl
     exact .inr ⟨(List.cons.inj same).1, even⟩
   · rw [List.concat_eq_append, ← List.cons_append, ← List.append_assoc] at split
     exact .inl ⟨a, b, (List.append_inj' split rfl).1, even⟩
 · rintro (cut | ⟨rfl, even⟩)
   · exact cut_append_left cut
   · exact ⟨front, [], rfl, even⟩

theorem slashed_append_left (slashed : Slashed front) : Slashed (front ++ tail) := by
 obtain ⟨a, b, rfl, odd, clean⟩ := slashed
 exact ⟨a, b ++ tail, by simp, odd, clean⟩

theorem slashed_append :
  Slashed (front ++ [c]) ↔ Slashed front ∨ c = '/' ∧ OddRun front ∧ ¬Cut front := by
 constructor
 · rintro ⟨a, b, split, odd, clean⟩
   rcases List.eq_nil_or_concat b with rfl | ⟨b, d, rfl⟩
   · obtain ⟨rfl, same⟩ := List.append_inj' split rfl
     exact .inr ⟨(List.cons.inj same).1, odd, clean⟩
   · rw [List.concat_eq_append, ← List.cons_append, ← List.append_assoc] at split
     exact .inl ⟨a, b, (List.append_inj' split rfl).1, odd, clean⟩
 · rintro (slashed | ⟨rfl, odd, clean⟩)
   · exact slashed_append_left slashed
   · exact ⟨front, [], rfl, odd, clean⟩

theorem slashed_of_cut (cut : Cut front) (slashed : Slashed (front ++ tail)) : Slashed front := by
 obtain ⟨a, b, split, odd, clean⟩ := slashed
 rcases List.append_eq_append_iff.mp split with ⟨more, rfl, -⟩ | ⟨more, rfl, behind⟩
 · exact absurd (cut_append_left cut) clean
 · cases more with
   | nil =>
    rw [List.append_nil] at cut
    exact absurd cut clean
   | cons d more =>
    obtain ⟨rfl, -⟩ := List.cons.inj behind
    exact ⟨a, more, rfl, odd, clean⟩

/-- The text behind the end of the comment; `odd` if the character before was a star that the
loop tests the next character after. -/
def scan : Bool → List Char → Option (List Char)
 | _, [] => none
 | odd, c :: rest =>
  if isSpace c then scan odd rest
  else if odd then if c = '/' then some rest else scan false rest
  else if c = eof then none
  else scan (c = '*') rest

theorem scan_odd (visible : isSpace c = false) :
  scan true (c :: s) = if c = '/' then some s else scan false s := by
 rw [scan, if_neg (by simp [visible]), if_pos rfl]

theorem scan_even (visible : isSpace c = false) :
  scan false (c :: s) = if c = eof then none else scan (c = '*') s := by
 rw [scan, if_neg (by simp [visible]), if_neg Bool.false_ne_true]

theorem scan_dropWhile (odd : Bool) : scan odd (s.dropWhile isSpace) = scan odd s := by
 induction s with
 | nil => rfl
 | cons c s ih =>
  by_cases space : isSpace c = true
  · rw [List.dropWhile_cons_of_pos space, ih, scan, if_pos space]
  · rw [List.dropWhile_cons_of_neg space]

theorem scan_shorter : ∀ {s : List Char} {odd : Bool} {back : List Char},
  scan odd s = some back → back.length < s.length := by
 intro s
 induction s with
 | nil => exact fun found => by cases found
 | cons c s ih =>
  intro odd back found
  rw [List.length_cons]
  rw [scan] at found
  split_ifs at found
  · exact Nat.lt_succ_of_lt (ih found)
  · cases found
    exact Nat.lt_succ_self _
  · exact Nat.lt_succ_of_lt (ih found)
  · exact Nat.lt_succ_of_lt (ih found)

theorem getChar_scan {fuel : ℕ} {l : Lexer} (enough : l.text.length < fuel) :
  ∃ c l', l.getChar fuel = some (c, l') ∧
   (c = eof ∧ l'.text = [] ∧ l.text.dropWhile isSpace = [] ∨
    l.text.dropWhile isSpace = c :: l'.text ∧ isSpace c = false) := by
 obtain ⟨l', read, behind⟩ := Lexer.getChar_eq enough
 refine ⟨_, l', read, ?_⟩
 have stop := List.head?_dropWhile_not isSpace l.text
 cases drop : l.text.dropWhile isSpace with
 | nil =>
  rw [drop] at behind
  exact .inl ⟨rfl, behind, rfl⟩
 | cons c rest =>
  rw [drop] at behind stop
  exact .inr ⟨congrArg (c :: ·) behind.symm, by simpa using stop⟩

theorem blockComment_eq : ∀ (fuel : ℕ) {l : Lexer}, l.text.length < fuel →
  ∃ l', l.blockComment fuel = some ((scan false l.text).isSome, l') ∧
   ∀ back, scan false l.text = some back → l'.text = back := by
 intro fuel
 induction fuel with
 | zero => exact fun enough => absurd enough (Nat.not_lt_zero _)
 | succ fuel ih =>
  intro l enough
  obtain ⟨c, l₁, read, place⟩ := getChar_scan enough
  rw [Lexer.blockComment, read, ← scan_dropWhile]
  dsimp only [Option.bind]
  rcases place with ⟨rfl, -, drop⟩ | ⟨drop, space⟩
  · rw [drop, if_neg (by simp)]
    exact ⟨l₁, rfl, (fun back found => by cases found)⟩
  · have shorter : l₁.text.length < l.text.length := by
     have le := List.length_dropWhile_le isSpace l.text
     rw [drop, List.length_cons] at le
     omega
    rw [drop, scan_even space]
    by_cases last : c = eof
    · rw [if_neg (not_not.mpr last), if_pos last, last]
      exact ⟨l₁, rfl, (fun back found => by cases found)⟩
    rw [if_pos last, if_neg last]
    by_cases star : c = '*'
    · rw [if_pos star, decide_eq_true star]
      have enough₁ : l₁.text.length < fuel + 1 := by omega
      obtain ⟨d, l₂, read₂, place₂⟩ := getChar_scan enough₁
      rw [read₂, ← scan_dropWhile]
      dsimp only
      rcases place₂ with ⟨rfl, nothing, drop₂⟩ | ⟨drop₂, space₂⟩
      · -- the end is read twice
        rw [drop₂, if_neg (by simp)]
        have enough₂ : l₂.text.length < fuel := by
         rw [nothing, List.length_nil]
         omega
        obtain ⟨l', run, back⟩ := ih enough₂
        rw [nothing] at run back
        exact ⟨l', run, back⟩
      · rw [drop₂, scan_odd space₂]
        by_cases slash : d = '/'
        · rw [if_pos ⟨by rw [slash]; decide, slash⟩, if_pos slash]
          exact ⟨l₂, rfl, fun back found => Option.some.inj found⟩
        · rw [if_neg fun both => slash both.2, if_neg slash]
          have le := List.length_dropWhile_le isSpace l₁.text
          rw [drop₂, List.length_cons] at le
          exact ih (by omega)
    · rw [if_neg star, decide_eq_false star]
      exact ih (by omega)

theorem scan_append (rest : List Char) : ∀ (s front : List Char), ¬Cut front → ¬Slashed front →
  (¬Cut (front ++ stripped s) ∧ ¬Slashed (front ++ stripped s) ∧
   scan (OddRun front) (s ++ rest) = scan (OddRun (front ++ stripped s)) rest) ∨
  (Slashed (front ++ stripped s) ∧
   ∃ back, scan (OddRun front) (s ++ rest) = some (back ++ rest)) ∨
  (Cut (front ++ stripped s) ∧ ¬Slashed (front ++ stripped s) ∧
   scan (OddRun front) (s ++ rest) = none) := by
 intro s
 induction s with
 | nil =>
  intro front uncut unslashed
  rw [stripped, List.filter_nil, List.append_nil]
  exact .inl ⟨uncut, unslashed, rfl⟩
 | cons c s ih =>
  intro front uncut unslashed
  rw [List.cons_append, scan]
  by_cases space : isSpace c = true
  · have same : stripped (c :: s) = stripped s := List.filter_cons_of_neg (by simp [space])
    rw [if_pos space, same]
    exact ih front uncut unslashed
  have more : front ++ stripped (c :: s) = front ++ [c] ++ stripped s := by
   rw [stripped, List.filter_cons_of_pos (by simp [space]), List.append_assoc]
   rfl
  rw [if_neg space, more]
  by_cases odd : OddRun front
  · rw [if_pos (by simpa using odd)]
    by_cases slash : c = '/'
    · rw [if_pos slash]
      exact .inr (.inl ⟨slashed_append_left (slashed_append.mpr (.inr ⟨slash, odd, uncut⟩)),
       s, rfl⟩)
    have uncut' : ¬Cut (front ++ [c]) := by
     rw [cut_append]
     simp [uncut, odd]
    have unslashed' : ¬Slashed (front ++ [c]) := by
     rw [slashed_append]
     simp [unslashed, slash]
    have even : ¬OddRun (front ++ [c]) := by
     rw [oddRun_append]
     simp [odd]
    have step := ih (front ++ [c]) uncut' unslashed'
    rw [decide_eq_false even] at step
    rw [if_neg slash]
    exact step
  · rw [if_neg (by simpa using odd)]
    by_cases last : c = eof
    · have cut : Cut (front ++ [c]) := cut_append.mpr (.inr ⟨last, odd⟩)
      rw [if_pos last]
      refine .inr (.inr ⟨cut_append_left cut, fun slashed => ?_, rfl⟩)
      rcases slashed_append.mp (slashed_of_cut cut slashed) with slashed | ⟨-, other, -⟩
      · exact unslashed slashed
      · exact odd other
    have uncut' : ¬Cut (front ++ [c]) := by
     rw [cut_append]
     simp [uncut, last]
    have unslashed' : ¬Slashed (front ++ [c]) := by
     rw [slashed_append]
     simp [unslashed, odd]
    have step := ih (front ++ [c]) uncut' unslashed'
    have next : decide (OddRun (front ++ [c])) = decide (c = '*') := by
     rw [decide_eq_decide, oddRun_append]
     simp [odd]
    rw [next] at step
    rw [if_neg last]
    exact step

theorem scan_open : scan false s = none ↔ ¬Slashed (stripped s) := by
 have start : decide (OddRun []) = false := rfl
 have uncut : ¬Cut [] := by
  rintro ⟨a, b, split, -⟩
  simp at split
 have unslashed : ¬Slashed [] := by
  rintro ⟨a, b, split, -⟩
  simp at split
 have cases := scan_append [] s [] uncut unslashed
 rw [start, List.append_nil, List.nil_append] at cases
 rcases cases with ⟨-, none, run⟩ | ⟨slashed, back, run⟩ | ⟨-, none, run⟩
 · rw [run, scan]
   simp [none]
 · rw [run]
   simp [slashed]
 · rw [run]
   simp [none]

theorem scan_closed {inside back : List Char} :
  scan false (inside ++ '*' :: '/' :: back) = some back ↔
   ¬Cut (stripped inside) ∧ ¬Slashed (stripped inside) ∧ ¬OddRun (stripped inside) := by
 have start : decide (OddRun []) = false := rfl
 have uncut : ¬Cut [] := by
  rintro ⟨a, b, split, -⟩
  simp at split
 have unslashed : ¬Slashed [] := by
  rintro ⟨a, b, split, -⟩
  simp at split
 have cases := scan_append ('*' :: '/' :: back) inside [] uncut unslashed
 rw [start, List.nil_append] at cases
 rcases cases with ⟨uncut, unslashed, run⟩ | ⟨slashed, other, run⟩ | ⟨cut, -, run⟩
 · by_cases odd : OddRun (stripped inside)
   · -- the star of the end is the second of a pair
     rw [run, decide_eq_true odd]
     have rest : scan true ('*' :: '/' :: back) = scan false back := by
      simp [scan, isSpace, eof]
     rw [rest]
     constructor
     · intro found
       exact absurd (scan_shorter found) (Nat.lt_irrefl _)
     · exact fun meets => absurd odd meets.2.2
   · rw [run, decide_eq_false odd]
     have rest : scan false ('*' :: '/' :: back) = some back := by
      simp [scan, isSpace, eof]
     rw [rest]
     simp [uncut, unslashed, odd]
 · rw [run]
   constructor
   · intro same
     have lengths := congrArg List.length (Option.some.inj same)
     simp at lengths
     omega
   · exact fun meets => absurd slashed meets.2.1
 · rw [run]
   constructor
   · exact fun none => by cases none
   · exact fun meets => absurd cut meets.1

theorem processComment_eq {fuel : ℕ} {l : Lexer} {body : List Char}
  (opening : l.text = '/' :: '*' :: body) (enough : l.text.length < fuel) :
  ∃ l', l.processComment fuel = some ((scan false body).isSome, l') ∧
   ∀ back, scan false body = some back → l'.text = back := by
 obtain ⟨-, behind⟩ := Lexer.getRawChar_of_cons opening
 have fewer : l.consumeChar.text.length < fuel := by
  rw [behind]
  rw [opening, List.length_cons] at enough
  omega
 obtain ⟨l₁, read, behind₁⟩ := Lexer.getChar_eq fewer
 have drop : l.consumeChar.text.dropWhile isSpace = '*' :: body := by
  rw [behind, List.dropWhile_cons_of_neg (by decide)]
 rw [drop] at read behind₁
 have text₁ : l₁.text = body := behind₁
 have enough₁ : l₁.text.length < fuel := by
  rw [text₁]
  rw [opening, List.length_cons, List.length_cons] at enough
  omega
 obtain ⟨l', run, back⟩ := blockComment_eq fuel enough₁
 rw [text₁] at run back
 refine ⟨l', ?_, back⟩
 rw [Lexer.processComment, read]
 exact run

/-- A block comment is ended right exactly if, without the spaces in it, no slash and no byte
0xFF in it stands at a wrong place and no odd run of stars is before its end. -/
theorem comment_right_iff {fuel : ℕ} {l : Lexer} {body : List Char}
    (opening : l.text = '/' :: '*' :: body) (enough : l.text.length < fuel) :
    CommentRight fuel l body ↔ CommentMeets body := by
  obtain ⟨l', run, behind⟩ := processComment_eq opening enough
  rw [CommentRight, CommentMeets, run]
  refine and_congr (forall₂_congr fun inside back => imp_congr_right fun first => ?_)
    (imp_congr_right fun _ => ?_)
  · rw [← scan_closed, ← first.1]
    constructor
    · rintro ⟨l₁, same, text⟩
      obtain ⟨some, rfl⟩ := Prod.mk.inj (Option.some.inj same)
      obtain ⟨back', found⟩ := Option.isSome_iff_exists.mp some
      rw [found, ← behind back' found, text]
    · intro found
      rw [found]
      exact ⟨l', rfl, behind back found⟩
  · rw [← scan_open]
    constructor
    · rintro ⟨l₁, same⟩
      obtain ⟨none, -⟩ := Prod.mk.inj (Option.some.inj same)
      exact Option.isSome_eq_false_iff.mp none |> Option.isNone_iff_eq_none.mp
    · intro none
      rw [none]
      exact ⟨l', rfl⟩

/-- The comment `/* a */`. -/
theorem comment_right_iff_small :
    CommentRight 9 (Lexer.initialized "/* a */;".toList) " a */;".toList ↔
      CommentMeets " a */;".toList :=
  comment_right_iff rfl (by decide)

/-- The star before the end is taken for the second one of a pair. -/
theorem stars_hide_end : ¬CommentRight 7 (Lexer.initialized "/***/".toList) "**/".toList := by
  rintro ⟨ended, -⟩
  obtain ⟨l', run, -⟩ := ended ['*'] [] ⟨rfl, by decide⟩
  have fails : ((Lexer.initialized "/***/".toList).processComment 7).map Prod.fst = some false := by
    decide
  rw [run] at fails
  cases fails

example : ((Lexer.initialized "/* * / */".toList).processComment 10).map
  (fun (ok, l) => (ok, l.text)) = some (true, " */".toList) := by
 decide

end DriversFramework.HcLexer
