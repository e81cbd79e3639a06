import DriversFramework.HdiFileReader
import DriversFramework.HdiLexerHalts

namespace DriversFramework.HdiParser

open LoopPrograms LoopPrograms.Prog

inductive Ending where
 | took
 | looked
 | short
 deriving DecidableEq

structure Lexeme where
 token : Option Token
 text : Name
 rest : List Char
 ending : Ending
 deriving DecidableEq

def isKeyChar (c : Char) : Bool := isAlphabet c || c = '_' || isDecimalDigital c || c = '.'

def named (key : Name) (rest : List Char) (ending : Ending) : Lexeme :=
 (keywords.lookup key).elim ⟨some .identifier, key, rest, ending⟩ fun t =>
  ⟨some t, [], rest, ending⟩

def lexKey (c : Char) (cs : List Char) : Lexeme :=
 match cs.dropWhile isKeyChar with
 | [] => named (c :: cs.takeWhile isKeyChar) [] .looked
 | d :: ds =>
  if isSpace d then named (c :: cs.takeWhile isKeyChar) ds .took
  else named (c :: cs.takeWhile isKeyChar) (d :: ds) .looked

def lexDigits (c : Char) (cs : List Char) : Lexeme :=
 ⟨some .digit, c :: cs.takeWhile isDecimalDigital, cs.dropWhile isDecimalDigital, .looked⟩

def inLine (c : Char) : Bool := c ≠ '\n'

def lexLine (cs : List Char) : Lexeme :=
 match cs.dropWhile inLine with
 | [] => ⟨some .commentLine, '/' :: cs.takeWhile inLine, [], .short⟩
 | _ :: ds => ⟨some .commentLine, '/' :: cs.takeWhile inLine, ds, .took⟩

def scanBlock : List Char → Name × List Char × Ending
 | [] => ([], [], .short)
 | c :: cs =>
  if c = '*' ∧ cs = [] then (['*'], [], .looked)
  else if c = '*' ∧ cs.head? = some '/' then (['*', '/'], cs.tail, .took)
  else (c :: (scanBlock cs).1, (scanBlock cs).2)

/-- A block comment. With `overlap` the star that opens it may be the one that closes it. -/
def lexBlock (overlap : Bool) (cs : List Char) : Lexeme :=
 if overlap then
  ⟨some .commentBlock, '/' :: (scanBlock cs).1, (scanBlock cs).2.1, (scanBlock cs).2.2⟩
 else
  ⟨some .commentBlock, '/' :: '*' :: (scanBlock cs.tail).1, (scanBlock cs.tail).2.1,
   (scanBlock cs.tail).2.2⟩

def lexOther (overlap : Bool) (c : Char) (cs : List Char) : Lexeme :=
 if c = '/' then
  if cs.head? = some '/' then lexLine cs
  else if cs.head? = some '*' then lexBlock overlap cs
  else ⟨some .unknown, [], cs, .looked⟩
 else ⟨some .unknown, [], cs, .took⟩

def lex (overlap : Bool) (c : Char) (cs : List Char) : Lexeme :=
 if isSpace c then ⟨none, [], cs, .took⟩
 else if isAlphabet c || c = '_' then lexKey c cs
 else if isDecimalDigital c then lexDigits c cs
 else (delimiters.lookup c).elim (lexOther overlap c cs) fun t => ⟨some t, [], cs, .took⟩

theorem scanBlock_rest_le (cs : List Char) : (scanBlock cs).2.1.length ≤ cs.length := by
 induction cs with
 | nil => exact Nat.le_refl 0
 | cons c cs ih =>
  unfold scanBlock
  split
  · exact Nat.zero_le _
  · split
    · change cs.tail.length ≤ cs.length + 1
      rw [List.length_tail]
      omega
    · exact Nat.le_succ_of_le ih

theorem named_rest (key : Name) (rest : List Char) (ending : Ending) :
 (named key rest ending).rest = rest := by
 unfold named
 cases keywords.lookup key with
 | none | some t => rfl

theorem lexKey_rest_le (c : Char) (cs : List Char) : (lexKey c cs).rest.length ≤ cs.length := by
 have short := (List.dropWhile_suffix (l := cs) isKeyChar).length_le
 unfold lexKey
 split
 · rw [named_rest]
   exact Nat.zero_le _
 · rename_i d ds behind
   rw [behind, List.length_cons] at short
   split
   · rw [named_rest]
     omega
   · rw [named_rest, List.length_cons]
     omega

theorem lexLine_rest_le (cs : List Char) : (lexLine cs).rest.length ≤ cs.length := by
 have short := (List.dropWhile_suffix (l := cs) inLine).length_le
 unfold lexLine
 split
 · exact Nat.zero_le _
 · rename_i d ds behind
   rw [behind, List.length_cons] at short
   exact Nat.le_of_succ_le short

theorem lexBlock_rest_le (overlap : Bool) (cs : List Char) :
 (lexBlock overlap cs).rest.length ≤ cs.length := by
 unfold lexBlock
 split
 · exact scanBlock_rest_le cs
 · exact Nat.le_trans (scanBlock_rest_le cs.tail) (by rw [List.length_tail]; omega)

theorem lex_rest_le (overlap : Bool) (c : Char) (cs : List Char) :
 (lex overlap c cs).rest.length ≤ cs.length := by
 unfold lex
 split
 · exact Nat.le_refl _
 · split
   · exact lexKey_rest_le c cs
   · split
     · exact (List.dropWhile_suffix (l := cs) isDecimalDigital).length_le
     · cases delimiters.lookup c with
       | some t => exact Nat.le_refl _
       | none =>
        change (lexOther overlap c cs).rest.length ≤ cs.length
        unfold lexOther
        split
        · split
          · exact lexLine_rest_le cs
          · split
            · exact lexBlock_rest_le overlap cs
            · exact Nat.le_refl _
        · exact Nat.le_refl _

def isComment (t : Token) : Bool := t = .commentLine || t = .commentBlock

def plainToken (skipComment : Bool) : List Char → (Token × Name) × List Char
 | [] => ((.endOfFile, []), [])
 | c :: cs =>
  match (lex false c cs).token with
  | none => plainToken skipComment (lex false c cs).rest
  | some t =>
   if skipComment && isComment t then plainToken skipComment (lex false c cs).rest
   else ((t, (lex false c cs).text), (lex false c cs).rest)
 termination_by text => text.length
 decreasing_by
  all_goals exact Nat.lt_succ_of_le (lex_rest_le false c cs)

def plainTokens : List Bool → List Char → List (Token × Name)
 | [], _ => []
 | skipComment :: skips, text =>
  (plainToken skipComment text).1 :: plainTokens skips (plainToken skipComment text).2

/-- What the lexer keeps of a token. -/
def kept (t : Token) (l : Lexer) : Name :=
 match t with
 | .identifier => l.identifier
 | .digit => l.digit
 | .commentLine => l.comment
 | .commentBlock => l.comment
 | _ => []

/-- Calls of `ReadToken` one after the other, and what they give. -/
inductive Reads : List Bool → Lexer → List (Token × Name) → Lexer → Prop where
 | nil (l : Lexer) : Reads [] l [] l
 | cons {skipComment : Bool} {skips : List Bool} {l m n : Lexer} {t : Token}
   {tokens : List (Token × Name)} (call : (Lexer.readToken skipComment).Runs l t m)
   (rest : Reads skips m tokens n) : Reads (skipComment :: skips) l ((t, kept t m) :: tokens) n

/-- The lexer at the beginning of a text. -/
def openLexer (text path : List Char) : Lexer :=
 { currentFile := { source := text, path := path } }

/-- Whatever the calls skip, they give the tokens of the text, and the end of the file from there
on. -/
def LexesPlainly (text path : List Char) : Prop :=
 ∀ skips, ∃ l, Reads skips (openLexer text path) (plainTokens skips text) l

def overlaps (c : Char) (cs : List Char) : Bool :=
 c = '/' && cs.head? = some '*' && cs.tail.head? = some '/' && !cs.tail.tail.isEmpty

/-- No comment of the text begins as if its star closed it; and in a text of whole reads a look
behind the last character comes with the last lexeme, which is no comment that the text cuts
off otherwise. -/
def Fine (whole : Bool) : List Char → Prop
 | [] => whole = false
 | c :: cs =>
  overlaps c cs = false ∧
   match (lex true c cs).ending with
   | .took => Fine whole (lex true c cs).rest
   | .looked => (lex true c cs).rest = [] ∨ Fine whole (lex true c cs).rest
   | .short => whole = false
 termination_by text => text.length
 decreasing_by
  all_goals exact Nat.lt_succ_of_le (lex_rest_le true c cs)

variable (rest : List Char)

section Loops

variable {whole : Bool} {f : File} {place : Option (List Char)}

theorem runs_then {σ α β : Type} {c : Prog σ α} {k : α → Prog σ β} {s t u : σ} {a : α} {b : β}
 (first : c.Runs s a t) (second : (k a).Runs t b u) : (c >>= k).Runs s b u :=
 (runs_bind c k s u b).mpr ⟨a, t, first, second⟩

theorem runs_return {σ α : Type} (a : α) (s : σ) : (pure a : Prog σ α).Runs s a s :=
 (runs_pure a a s s).mpr ⟨rfl, rfl⟩

theorem peek_runs (shows_ : Shows whole f place) :
 ∃ g, (step File.peekChar).Runs f (front place) g ∧ Shows whole g (peeked place) := by
 obtain ⟨char, after⟩ := shows_peek shows_
 have run := runs_step File.peekChar f
 rw [char] at run
 exact ⟨_, run, after⟩

theorem get_runs (shows_ : Shows whole f place) :
 ∃ g, (step File.getChar).Runs f (front place) g ∧ Shows whole g (advanced whole place) := by
 obtain ⟨char, after⟩ := shows_get shows_
 have run := runs_step File.getChar f
 rw [char] at run
 exact ⟨_, run, after⟩

section Rounds

variable {α : Type} {body : α → Prog File (α ⊕ α)} {a b c : α} {g h : File}

theorem untilEof_round (more : f.isEof = false) {r : α ⊕ α} (round : (body a).Runs f r g) :
 (Prog.read File.isEof >>= fun eof => if eof then pure (.inr a) else body a).Runs f r g := by
 refine runs_then (runs_step (fun f : File => (f.isEof, f)) f) ?_
 rw [more]
 exact round

theorem untilEof_last (more : f.isEof = false) (round : (body a).Runs f (.inr b) g) :
 (untilEof body a).Runs f b g :=
 (runs_loop _ a f g b).mpr (.inl (untilEof_round more round))

theorem untilEof_next (more : f.isEof = false) (round : (body a).Runs f (.inl b) g)
 (rest : (untilEof body b).Runs g c h) : (untilEof body a).Runs f c h :=
 (runs_loop _ a f h c).mpr (.inr ⟨b, g, untilEof_round more round, rest⟩)

end Rounds

theorem shows_more {rest : List Char} (shows_ : Shows whole f (some rest)) : f.isEof = false := by
 rw [shows_isEof shows_]
 rfl

def keyPlace (whole : Bool) : List Char → Option (List Char)
 | [] => none
 | d :: ds => if isSpace d then took whole ds else some (d :: ds)

theorem took_nil (whole : Bool) : took whole [] = none ∧ whole = false ∨
 took whole [] = some [] ∧ whole = true := by
 cases whole with
 | false => exact .inl ⟨rfl, rfl⟩
 | true => exact .inr ⟨rfl, rfl⟩

theorem readKey_shows (key : Name) (shows_ : Shows whole f (took whole rest)) :
 ∃ g, (Lexer.readKey key).Runs f (key ++ rest.takeWhile isKeyChar) g ∧
  Shows whole g (keyPlace whole (rest.dropWhile isKeyChar)) := by
 induction rest generalizing key f with
 | nil =>
  rw [List.takeWhile_nil, List.append_nil]
  rcases took_nil whole with ⟨none, -⟩ | ⟨some_, -⟩
  · rw [none] at shows_
    exact ⟨f, untilEof_at_end _ key (Seen.isEof shows_), shows_⟩
  · rw [some_] at shows_
    obtain ⟨g, peek, after⟩ := peek_runs shows_
    refine ⟨g, untilEof_last (shows_more shows_) (runs_then peek ?_), after⟩
    exact runs_return _ g
 | cons c cs ih =>
  rw [took_cons] at shows_
  have more := shows_more shows_
  obtain ⟨g, peek, after⟩ := peek_runs shows_
  by_cases inKey : isKeyChar c = true
  · obtain ⟨h, get, behind⟩ := get_runs after
    obtain ⟨i, run, shown⟩ := ih (key ++ [c]) behind
    rw [List.takeWhile_cons_of_pos inKey, List.dropWhile_cons_of_pos inKey]
    rw [List.append_assoc] at run
    refine ⟨i, untilEof_next more (runs_then peek ?_) run, shown⟩
    change (if isKeyChar c = true then _ else _ : Prog File (Name ⊕ Name)).Runs _ _ _
    rw [if_pos inKey]
    exact runs_then get (runs_return _ h)
  rw [List.takeWhile_cons_of_neg inKey, List.dropWhile_cons_of_neg inKey, List.append_nil]
  by_cases space : isSpace c = true
  · obtain ⟨h, get, behind⟩ := get_runs after
    have shown : Shows whole h (keyPlace whole (c :: cs)) := by
     rw [keyPlace, if_pos space]
     exact behind
    refine ⟨h, untilEof_last more (runs_then peek ?_), shown⟩
    change (if isKeyChar c = true then _ else if isSpace c = true then _ else _ :
     Prog File (Name ⊕ Name)).Runs _ _ _
    rw [if_neg inKey, if_pos space]
    exact runs_then get (runs_return _ h)
  · have shown : Shows whole g (keyPlace whole (c :: cs)) := by
     rw [keyPlace, if_neg space]
     exact after
    refine ⟨g, untilEof_last more (runs_then peek ?_), shown⟩
    change (if isKeyChar c = true then _ else if isSpace c = true then _ else _ :
     Prog File (Name ⊕ Name)).Runs _ _ _
    rw [if_neg inKey, if_neg space]
    exact runs_return _ g

theorem readDigits_shows (digit : Name) (shows_ : Shows whole f (took whole rest)) :
 ∃ g, (Lexer.readDigits digit).Runs f (digit ++ rest.takeWhile isDecimalDigital) g ∧
  Shows whole g (looked (rest.dropWhile isDecimalDigital)) := by
 induction rest generalizing digit f with
 | nil =>
  rw [List.takeWhile_nil, List.append_nil]
  rcases took_nil whole with ⟨none, -⟩ | ⟨some_, -⟩
  · rw [none] at shows_
    exact ⟨f, untilEof_at_end _ digit (Seen.isEof shows_), shows_⟩
  · rw [some_] at shows_
    obtain ⟨g, peek, after⟩ := peek_runs shows_
    refine ⟨g, untilEof_last (shows_more shows_) (runs_then peek ?_), after⟩
    exact runs_return _ g
 | cons c cs ih =>
  rw [took_cons] at shows_
  have more := shows_more shows_
  obtain ⟨g, peek, after⟩ := peek_runs shows_
  by_cases inDigit : isDecimalDigital c = true
  · obtain ⟨h, get, behind⟩ := get_runs after
    obtain ⟨i, run, shown⟩ := ih (digit ++ [c]) behind
    rw [List.takeWhile_cons_of_pos inDigit, List.dropWhile_cons_of_pos inDigit]
    rw [List.append_assoc] at run
    refine ⟨i, untilEof_next more (runs_then peek ?_) run, shown⟩
    change (if isDecimalDigital c = true then _ else _ : Prog File (Name ⊕ Name)).Runs _ _ _
    rw [if_pos inDigit]
    exact runs_then get (runs_return _ h)
  · rw [List.takeWhile_cons_of_neg inDigit, List.dropWhile_cons_of_neg inDigit, List.append_nil,
     looked_cons]
    refine ⟨g, untilEof_last more (runs_then peek ?_), after⟩
    change (if isDecimalDigital c = true then _ else _ : Prog File (Name ⊕ Name)).Runs _ _ _
    rw [if_neg inDigit]
    exact runs_return _ g

def extra (whole : Bool) : Ending → Name
 | .short => if whole then [endOfBuffer] else []
 | _ => []

/-- What the file shows behind a piece with `rest` behind it. -/
def behind (whole : Bool) (rest : List Char) : Ending → Option (List Char)
 | .took => took whole rest
 | .looked => looked rest
 | .short => none

theorem comment_end {body : Name → Prog File (Name ⊕ Name)} (comment : Name)
 (shows_ : Shows whole f (took whole []))
 (goesOn : ∀ {g : File}, (step File.getChar).Runs f endOfBuffer g →
  (body comment).Runs f (.inl (comment ++ [endOfBuffer])) g) :
 ∃ g, (untilEof body comment).Runs f (comment ++ extra whole .short) g ∧ Shows whole g none := by
 rcases took_nil whole with ⟨none, rfl⟩ | ⟨some_, rfl⟩
 · rw [none] at shows_
   refine ⟨f, ?_, shows_⟩
   rw [extra, if_neg (by decide), List.append_nil]
   exact untilEof_at_end _ comment (Seen.isEof shows_)
 · rw [some_] at shows_
   obtain ⟨g, get, after⟩ := get_runs shows_
   exact ⟨g, untilEof_next (shows_more shows_) (goesOn get)
    (untilEof_at_end _ _ (Seen.isEof after)), after⟩

theorem readLine_shows (comment : Name) (shows_ : Shows whole f (took whole rest)) :
 ∃ g, (Lexer.readLine comment).Runs f (comment ++ (lexLine rest).text.tail ++
  extra whole (lexLine rest).ending) g ∧
  Shows whole g (behind whole (lexLine rest).rest (lexLine rest).ending) := by
 induction rest generalizing comment f with
 | nil =>
  rw [show (lexLine []).text.tail = [] from rfl, List.append_nil]
  refine comment_end comment shows_ fun get => runs_then get ?_
  exact runs_return _ _
 | cons c cs ih =>
  rw [took_cons] at shows_
  obtain ⟨g, get, after⟩ := get_runs shows_
  by_cases line : c = '\n'
  · subst line
    refine ⟨g, untilEof_last (shows_more shows_) (runs_then get ?_), after⟩
    rw [show (lexLine ('\n' :: cs)).text.tail = [] from rfl, List.append_nil,
     show extra whole (lexLine ('\n' :: cs)).ending = [] from rfl, List.append_nil]
    exact runs_return _ g
  have goesOn : inLine c = true := decide_eq_true line
  have same : (lexLine (c :: cs)).text.tail = c :: (lexLine cs).text.tail ∧
   (lexLine (c :: cs)).rest = (lexLine cs).rest ∧
   (lexLine (c :: cs)).ending = (lexLine cs).ending := by
   unfold lexLine
   rw [List.dropWhile_cons_of_pos goesOn, List.takeWhile_cons_of_pos goesOn]
   cases cs.dropWhile inLine with
   | nil | cons d ds => exact ⟨rfl, rfl, rfl⟩
  obtain ⟨h, run, shown⟩ := ih (comment ++ [c]) after
  rw [same.1, same.2.1, same.2.2, List.append_cons]
  refine ⟨h, untilEof_next (shows_more shows_) (runs_then get ?_) run, shown⟩
  change (if c = '\n' then _ else _ : Prog File (Name ⊕ Name)).Runs _ _ _
  rw [if_neg line]
  exact runs_return _ g

theorem readBlock_shows (comment : Name) (shows_ : Shows whole f (took whole rest)) :
 ∃ g, (Lexer.readBlock comment).Runs f (comment ++ (scanBlock rest).1 ++
  extra whole (scanBlock rest).2.2) g ∧
  Shows whole g (behind whole (scanBlock rest).2.1 (scanBlock rest).2.2) := by
 induction rest generalizing comment f with
 | nil =>
  rw [show (scanBlock []).1 = [] from rfl, List.append_nil]
  refine comment_end comment shows_ fun get => runs_then get ?_
  exact runs_return _ _
 | cons c cs ih =>
  rw [took_cons] at shows_
  have more := shows_more shows_
  obtain ⟨g, get, after⟩ := get_runs shows_
  by_cases star : c = '*'
  · subst star
    obtain ⟨h, peek, shown⟩ := peek_runs after
    cases cs with
    | nil =>
     have ended : advanced whole (some ['*']) = took whole [] := rfl
     have sign : front (took whole []) = endOfBuffer ∧ peeked (took whole []) = none := by
      cases whole with
      | false | true => exact ⟨rfl, rfl⟩
     rw [ended, sign.1] at peek
     rw [ended, sign.2] at shown
     have kept : comment ++ (scanBlock ['*']).1 ++ extra whole (scanBlock ['*']).2.2 =
      comment ++ ['*'] := List.append_nil _
     rw [kept]
     refine ⟨h, untilEof_next more (runs_then get (runs_then peek ?_))
      (untilEof_at_end _ _ (Seen.isEof shown)), shown⟩
     exact runs_return _ h
    | cons d ds =>
     have next : advanced whole (some ('*' :: d :: ds)) = some (d :: ds) := took_cons whole d ds
     rw [next] at peek shown
     by_cases slash : d = '/'
     · subst slash
       obtain ⟨i, take, last⟩ := get_runs shown
       have kept : comment ++ (scanBlock ('*' :: '/' :: ds)).1 ++
        extra whole (scanBlock ('*' :: '/' :: ds)).2.2 = comment ++ ['*', '/'] :=
        List.append_nil _
       rw [kept]
       refine ⟨i, untilEof_last more (runs_then get (runs_then peek (runs_then take ?_))), last⟩
       exact runs_return _ i
     have go : scanBlock ('*' :: d :: ds) =
      ('*' :: (scanBlock (d :: ds)).1, (scanBlock (d :: ds)).2) := by
      rw [scanBlock, if_neg fun h => List.cons_ne_nil d ds h.2,
       if_neg fun h => slash (Option.some.inj h.2)]
     have same : Shows whole h (took whole (d :: ds)) := by
      rw [took_cons]
      exact shown
     obtain ⟨i, run, last⟩ := ih (comment ++ ['*']) same
     rw [go]
     rw [List.append_assoc comment ['*']] at run
     refine ⟨i, untilEof_next more (runs_then get (runs_then peek ?_)) run, last⟩
     change (if d = '/' then _ else _ : Prog File (Name ⊕ Name)).Runs _ _ _
     rw [if_neg slash]
     exact runs_return _ h
  · have go : scanBlock (c :: cs) = (c :: (scanBlock cs).1, (scanBlock cs).2) := by
     rw [scanBlock, if_neg fun h => star h.1, if_neg fun h => star h.1]
    obtain ⟨h, run, shown⟩ := ih (comment ++ [c]) after
    rw [go]
    rw [List.append_assoc comment [c]] at run
    refine ⟨h, untilEof_next more (runs_then get ?_) run, shown⟩
    change (if c = '*' then _ else _ : Prog File (Name ⊕ Name)).Runs _ _ _
    rw [if_neg star]
    exact runs_return _ g

end Loops

variable {t : Token}

section Tokens

def keepsNothing (t : Token) : Bool :=
 t ≠ .identifier && t ≠ .digit && t ≠ .commentLine && t ≠ .commentBlock

theorem kept_nothing (nothing : keepsNothing t = true) (l : Lexer) : kept t l = [] := by
 cases t <;> first | rfl | cases nothing

theorem comment_keeps (nothing : keepsNothing t = true) : isComment t = false := by
 cases t <;> first | rfl | cases nothing

theorem keyword_nothing {key : Name} (found : keywords.lookup key = some t) :
 keepsNothing t = true := by
 have all : ∀ t ∈ keywords.map Prod.snd, keepsNothing t = true := by decide
 exact all t (List.mem_map_of_mem (Lexer.mem_of_lookup found))

theorem delimiter_nothing {c : Char} (found : delimiters.lookup c = some t) :
 keepsNothing t = true := by
 have all : ∀ t ∈ delimiters.map Prod.snd, keepsNothing t = true := by decide
 exact all t (List.mem_map_of_mem (Lexer.mem_of_lookup found))

end Tokens

structure Behind (whole : Bool) (x : Lexeme) (t : Token) (l : Lexer) : Prop where
 token : x.token = some t
 kept : kept t l = x.text ++ extra whole x.ending
 shows_ : Shows whole l.currentFile (behind whole x.rest x.ending)

/-- What a round gives: a token, unless it is a comment to be skipped. -/
def outcome (skipComment : Bool) (t : Token) : Unit ⊕ Token :=
 if skipComment && isComment t then .inl () else .inr t

variable (skipComment : Bool)

section Lexers

variable {whole : Bool} {l : Lexer} {cs : List Char}

theorem onFile_runs {α : Type} {c : Prog File α} {a : α} {f : File}
 (run : c.Runs l.currentFile a f) : (Lexer.onFile c).Runs l a { l with currentFile := f } :=
 (runs_zoom _ _ c l _ a).mpr ⟨f, run, rfl⟩

theorem lexKey_eq (whole : Bool) (c : Char) (cs : List Char) : ∃ rest ending,
 lexKey c cs = named (c :: cs.takeWhile isKeyChar) rest ending ∧ extra whole ending = [] ∧
  keyPlace whole (cs.dropWhile isKeyChar) = behind whole rest ending := by
 unfold lexKey
 cases cs.dropWhile isKeyChar with
 | nil => exact ⟨[], .looked, rfl, rfl, rfl⟩
 | cons d ds =>
  by_cases space : isSpace d = true
  · exact ⟨ds, .took, if_pos space, rfl, if_pos space⟩
  · exact ⟨d :: ds, .looked, if_neg space, rfl, (if_neg space).trans (looked_cons d ds).symm⟩

theorem readIdentifier_behind (c : Char) (shows_ : Shows whole l.currentFile (took whole cs)) :
 ∃ t m, (Lexer.readIdentifier c).Runs l t m ∧ Behind whole (lexKey c cs) t m ∧
  isComment t = false := by
 obtain ⟨f, run, shown⟩ := readKey_shows cs [c] shows_
 obtain ⟨rest, ending, lexeme, none, place⟩ := lexKey_eq whole c cs
 rw [place] at shown
 have key := onFile_runs run
 rw [lexeme]
 cases found : keywords.lookup (c :: cs.takeWhile isKeyChar) with
 | none =>
  have name : named (c :: cs.takeWhile isKeyChar) rest ending =
   ⟨some .identifier, c :: cs.takeWhile isKeyChar, rest, ending⟩ := by
   rw [named, found]
   rfl
  rw [name]
  refine ⟨.identifier, { l with
   currentFile := f
   identifier := c :: cs.takeWhile isKeyChar
   currentToken := .identifier }, runs_then key ?_, ⟨rfl, ?_, shown⟩, rfl⟩
  · change ((keywords.lookup (c :: cs.takeWhile isKeyChar)).elim _ _ :
     Prog Lexer Token).Runs _ _ _
    rw [found]
    exact runs_step _ _
  · rw [none, List.append_nil]
    rfl
 | some t =>
  have name : named (c :: cs.takeWhile isKeyChar) rest ending = ⟨some t, [], rest, ending⟩ := by
   rw [named, found]
   rfl
  rw [name]
  refine ⟨t, { l with currentFile := f, currentToken := t }, runs_then key ?_, ⟨rfl, ?_, shown⟩,
   comment_keeps (keyword_nothing found)⟩
  · change ((keywords.lookup (c :: cs.takeWhile isKeyChar)).elim _ _ :
     Prog Lexer Token).Runs _ _ _
    rw [found]
    exact runs_step _ _
  · rw [none, kept_nothing (keyword_nothing found)]
    rfl

theorem readDecimalDigital_behind (c : Char)
 (shows_ : Shows whole l.currentFile (took whole cs)) :
 ∃ m, (Lexer.readDecimalDigital c).Runs l .digit m ∧ Behind whole (lexDigits c cs) .digit m := by
 obtain ⟨f, run, shown⟩ := readDigits_shows cs [c] shows_
 exact ⟨_, runs_then (onFile_runs run) (runs_step _ _), rfl, (List.append_nil _).symm, shown⟩

theorem readLineComment_behind (shows_ : Shows whole l.currentFile (took whole cs)) :
 ∃ m, (Lexer.readLineComment '/').Runs l .commentLine m ∧
  Behind whole (lexLine cs) .commentLine m := by
 obtain ⟨f, run, shown⟩ := readLine_shows cs ['/'] shows_
 have text : ['/'] ++ (lexLine cs).text.tail = (lexLine cs).text ∧
  (lexLine cs).token = some .commentLine := by
  unfold lexLine
  cases cs.dropWhile inLine with
  | nil | cons d ds => exact ⟨rfl, rfl⟩
 rw [text.1] at run
 exact ⟨_, runs_then (onFile_runs run) (runs_step _ _), text.2, rfl, shown⟩

theorem readBlockComment_behind (shows_ : Shows whole l.currentFile (took whole cs)) :
 ∃ m, (Lexer.readBlockComment '/').Runs l .commentBlock m ∧
  Behind whole (lexBlock true cs) .commentBlock m := by
 obtain ⟨f, run, shown⟩ := readBlock_shows cs ['/'] shows_
 exact ⟨_, runs_then (onFile_runs run) (runs_step _ _), rfl, rfl, shown⟩

theorem runs_outcome {c : Prog Lexer Token} {m : Lexer}
 (run : c.Runs l t m) (comment : isComment t = true) :
 (c >>= fun t => if skipComment then pure (.inl ()) else pure (.inr t) :
  Prog Lexer (Unit ⊕ Token)).Runs l (outcome skipComment t) m := by
 refine runs_then run ?_
 unfold outcome
 rw [comment, Bool.and_true]
 cases skipComment with
 | true | false => exact runs_return _ m

theorem outcome_token (other : isComment t = false) : outcome skipComment t = .inr t := by
 rw [outcome, other, Bool.and_false]
 rfl

theorem setToken_behind (ending : Ending) (none : extra whole ending = [])
 (shows_ : Shows whole l.currentFile (behind whole rest ending)) :
 ∃ m, (Lexer.setToken .unknown).Runs l .unknown m ∧
  Behind whole ⟨some .unknown, [], rest, ending⟩ .unknown m := by
 refine ⟨_, runs_step _ _, rfl, ?_, shows_⟩
 rw [none]
 rfl

theorem readOther_behind (c : Char) (shows_ : Shows whole l.currentFile (took whole cs)) :
 ∃ t m, (Lexer.readOther skipComment c).Runs l (outcome skipComment t) m ∧
  Behind whole (lexOther true c cs) t m := by
 unfold Lexer.readOther lexOther
 by_cases slash : c = '/'
 · subst slash
   rw [if_pos rfl, if_pos rfl]
   obtain ⟨f, peek, shown⟩ := peek_runs shows_
   have look := onFile_runs peek
   cases cs with
   | nil =>
    have sign : front (took whole []) = endOfBuffer ∧ peeked (took whole []) = none := by
     cases whole with
     | false | true => exact ⟨rfl, rfl⟩
    rw [sign.1] at look
    rw [sign.2] at shown
    obtain ⟨m, run, after⟩ := setToken_behind [] .looked rfl
     (l := { l with currentFile := f }) shown
    rw [if_neg (fun h => by cases h), if_neg (fun h => by cases h)]
    refine ⟨.unknown, m, runs_then look ?_, after⟩
    rw [outcome_token skipComment rfl]
    exact runs_then run (runs_return _ m)
   | cons d ds =>
    rw [took_cons] at look shown
    have same : Shows whole f (took whole (d :: ds)) := by
     rw [took_cons]
     exact shown
    have head : ∀ e : Char, (d :: ds).head? = some e ↔ d = e := fun e => Option.some_inj
    by_cases line : d = '/'
    · rw [if_pos ((head '/').mpr line)]
      obtain ⟨m, run, after⟩ := readLineComment_behind (l := { l with currentFile := f }) same
      refine ⟨.commentLine, m, runs_then look ?_, after⟩
      change (if d = '/' then _ else _ : Prog Lexer (Unit ⊕ Token)).Runs _ _ _
      rw [if_pos line]
      exact runs_outcome skipComment run rfl
    rw [if_neg (mt (head '/').mp line)]
    by_cases block : d = '*'
    · rw [if_pos ((head '*').mpr block)]
      obtain ⟨m, run, after⟩ := readBlockComment_behind (l := { l with currentFile := f }) same
      refine ⟨.commentBlock, m, runs_then look ?_, after⟩
      change (if d = '/' then _ else if d = '*' then _ else _ :
       Prog Lexer (Unit ⊕ Token)).Runs _ _ _
      rw [if_neg line, if_pos block]
      exact runs_outcome skipComment run rfl
    rw [if_neg (mt (head '*').mp block)]
    have place : Shows whole f (behind whole (d :: ds) .looked) := by
     rw [behind, looked_cons]
     exact shown
    obtain ⟨m, run, after⟩ := setToken_behind (d :: ds) .looked rfl
     (l := { l with currentFile := f }) place
    refine ⟨.unknown, m, runs_then look ?_, after⟩
    change (if d = '/' then _ else if d = '*' then _ else _ :
     Prog Lexer (Unit ⊕ Token)).Runs _ _ _
    rw [if_neg line, if_neg block, outcome_token skipComment rfl]
    exact runs_then run (runs_return _ m)
 · rw [if_neg slash, if_neg slash]
   obtain ⟨m, run, after⟩ := setToken_behind cs .took rfl shows_
   refine ⟨.unknown, m, ?_, after⟩
   rw [outcome_token skipComment rfl]
   exact runs_then run (runs_return _ m)

def roundRest (skipComment : Bool) (c : Char) : Prog Lexer (Unit ⊕ Token) :=
 if isSpace c then return .inl ()
 else if isAlphabet c || c = '_' then do
  let t ← Lexer.readIdentifier c
  return .inr t
 else if isDecimalDigital c then do
  let t ← Lexer.readDecimalDigital c
  return .inr t
 else (delimiters.lookup c).elim (Lexer.readOther skipComment c) fun t => return .inr t

theorem round_runs {rest : List Char} (shows_ : Shows whole l.currentFile (some rest)) :
 ∃ m, Shows whole m.currentFile (advanced whole (some rest)) ∧
  ∀ r n, (roundRest skipComment (front (some rest))).Runs m r n →
   (Lexer.readTokenRound skipComment).Runs l r n := by
 obtain ⟨f, get, after⟩ := get_runs shows_
 refine ⟨{ l with currentFile := f, tokenLineNo := f.lineNo, tokenColumnNo := f.columnNo }, after,
  fun r n run => ?_⟩
 refine runs_then (runs_step (fun l : Lexer => (l.currentFile.isEof, l)) l) ?_
 rw [shows_more shows_]
 refine runs_then (onFile_runs get) ?_
 exact runs_then (runs_step (fun l : Lexer => ((), { l with
  tokenLineNo := l.currentFile.lineNo
  tokenColumnNo := l.currentFile.columnNo })) { l with currentFile := f }) run

theorem round_space {c : Char}
 (shows_ : Shows whole l.currentFile (some (c :: cs))) (space : isSpace c = true) :
 ∃ m, (Lexer.readTokenRound skipComment).Runs l (.inl ()) m ∧
  Shows whole m.currentFile (took whole cs) := by
 obtain ⟨m, shown, round⟩ := round_runs skipComment shows_
 refine ⟨m, round _ _ ?_, shown⟩
 change (roundRest skipComment c).Runs _ _ _
 rw [roundRest, if_pos space]
 exact runs_return _ m

theorem round_lex {c : Char}
 (shows_ : Shows whole l.currentFile (some (c :: cs))) (other : ¬isSpace c = true) :
 ∃ t m, (Lexer.readTokenRound skipComment).Runs l (outcome skipComment t) m ∧
  Behind whole (lex true c cs) t m := by
 obtain ⟨k, shown, round⟩ := round_runs skipComment shows_
 have found : ∃ t m, (roundRest skipComment c).Runs k (outcome skipComment t) m ∧
  Behind whole (lex true c cs) t m := by
  unfold roundRest lex
  rw [if_neg other, if_neg other]
  by_cases name : (isAlphabet c || c = '_') = true
  · rw [if_pos name, if_pos name]
    obtain ⟨t, m, run, after, plain⟩ := readIdentifier_behind c shown
    refine ⟨t, m, ?_, after⟩
    rw [outcome_token skipComment plain]
    exact runs_then run (runs_return _ m)
  rw [if_neg name, if_neg name]
  by_cases digit : isDecimalDigital c = true
  · rw [if_pos digit, if_pos digit]
    obtain ⟨m, run, after⟩ := readDecimalDigital_behind c shown
    refine ⟨.digit, m, ?_, after⟩
    rw [outcome_token skipComment rfl]
    exact runs_then run (runs_return _ m)
  rw [if_neg digit, if_neg digit]
  cases delimiter : delimiters.lookup c with
  | none => exact readOther_behind skipComment c shown
  | some t =>
   have nothing := delimiter_nothing delimiter
   refine ⟨t, k, ?_, rfl, ?_, shown⟩
   · rw [outcome_token skipComment (comment_keeps nothing)]
     exact runs_return _ k
   · exact kept_nothing nothing k
 obtain ⟨t, m, run, after⟩ := found
 exact ⟨t, m, round _ _ run, after⟩

theorem round_unseen (shows_ : Shows whole l.currentFile (some [])) :
 ∃ m, (Lexer.readTokenRound skipComment).Runs l (.inr .unknown) m := by
 obtain ⟨k, -, round⟩ := round_runs skipComment shows_
 have run := runs_step (fun l : Lexer => (Token.unknown, { l with currentToken := .unknown })) k
 refine ⟨{ k with currentToken := .unknown },
  round _ { k with currentToken := .unknown } ?_⟩
 exact runs_then run (runs_return _ _)

theorem readToken_end (shows_ : Shows whole l.currentFile none) :
 (Lexer.readToken skipComment).Runs l .endOfFile { l with currentToken := .endOfFile } := by
 refine (runs_loop _ () l _ _).mpr (.inl ?_)
 refine runs_then (runs_step (fun l : Lexer => (l.currentFile.isEof, l)) l) ?_
 rw [Seen.isEof shows_]
 exact runs_then (runs_step _ l) (runs_return _ _)

theorem readToken_last {m : Lexer} (round : (Lexer.readTokenRound skipComment).Runs l (.inr t) m) :
 (Lexer.readToken skipComment).Runs l t m :=
 (runs_loop _ () l m t).mpr (.inl round)

theorem readToken_next {m n : Lexer} (round : (Lexer.readTokenRound skipComment).Runs l (.inl ()) m)
 (run : (Lexer.readToken skipComment).Runs m t n) :
 (Lexer.readToken skipComment).Runs l t n :=
 (runs_loop _ () l n t).mpr (.inr ⟨(), m, round, run⟩)

end Lexers

theorem scanBlock_ne_nil (c : Char) (cs : List Char) : (scanBlock (c :: cs)).1 ≠ [] := by
 rw [scanBlock]
 split
 · exact List.cons_ne_nil _ _
 · split
   · exact List.cons_ne_nil _ _
   · exact List.cons_ne_nil _ _

theorem scanBlock_short (cs : List Char) (short : (scanBlock cs).2.2 = .short) :
 (scanBlock cs).2.1 = [] := by
 induction cs with
 | nil => rfl
 | cons c cs ih =>
  unfold scanBlock at short ⊢
  split at short
  · cases short
  · split at short
    · cases short
    · rename_i last close
      rw [if_neg last, if_neg close]
      exact ih short

theorem lexKey_ending (c : Char) (cs : List Char) : (lexKey c cs).ending ≠ .short := by
 have ending : ∀ key rest e, (named key rest e).ending = e := fun key rest e => by
  unfold named
  cases keywords.lookup key with
  | none | some t => rfl
 unfold lexKey
 split
 · rw [ending]
   decide
 · split
   · rw [ending]
     decide
   · rw [ending]
     decide

theorem lex_short (c : Char) (cs : List Char) (short : (lex true c cs).ending = .short) :
 (lex true c cs).rest = [] := by
 unfold lex at short ⊢
 split at short
 · cases short
 · rename_i space
   rw [if_neg space]
   split at short
   · exact absurd short (lexKey_ending c cs)
   · rename_i name
     rw [if_neg name]
     split at short
     · cases short
     · rename_i digit
       rw [if_neg digit]
       cases found : delimiters.lookup c with
       | some t =>
        rw [found] at short
        cases short
       | none =>
        rw [found] at short
        change (lexOther true c cs).rest = []
        change (lexOther true c cs).ending = .short at short
        unfold lexOther at short ⊢
        split at short
        · rename_i slash
          rw [if_pos slash]
          split at short
          · rename_i line
            rw [if_pos line]
            unfold lexLine at short ⊢
            cases behind : cs.dropWhile inLine with
            | nil => rfl
            | cons d ds =>
             rw [behind] at short
             cases short
          · rename_i line
            rw [if_neg line]
            split at short
            · rename_i block
              rw [if_pos block]
              exact scanBlock_short cs short
            · cases short
        · cases short

structure SameLexeme (x y : Lexeme) : Prop where
 token : x.token = y.token
 text : x.text = y.text
 rest : x.rest = y.rest

theorem SameLexeme.refl (x : Lexeme) : SameLexeme x x := ⟨rfl, rfl, rfl⟩

theorem lexBlock_same {cs : List Char} (star : cs.head? = some '*')
 (apart : ¬(cs.tail.head? = some '/' ∧ cs.tail.tail ≠ [])) :
 SameLexeme (lexBlock true cs) (lexBlock false cs) := by
 obtain ⟨ds, rfl⟩ := List.head?_eq_some_iff.mp star
 cases ds with
 | nil => exact ⟨rfl, rfl, rfl⟩
 | cons d ds =>
  by_cases slash : d = '/'
  · subst slash
    cases ds with
    | nil => exact ⟨rfl, rfl, rfl⟩
    | cons e es => exact absurd ⟨rfl, List.cons_ne_nil e es⟩ apart
  have go : scanBlock ('*' :: d :: ds) =
   ('*' :: (scanBlock (d :: ds)).1, (scanBlock (d :: ds)).2) := by
   rw [scanBlock, if_neg fun h => List.cons_ne_nil d ds h.2,
    if_neg fun h => slash (Option.some.inj h.2)]
  rw [lexBlock, if_pos rfl, go]
  exact ⟨rfl, rfl, rfl⟩

theorem overlaps_iff (c : Char) (cs : List Char) : overlaps c cs = true ↔
 c = '/' ∧ cs.head? = some '*' ∧ cs.tail.head? = some '/' ∧ cs.tail.tail ≠ [] := by
 simp [overlaps, and_assoc]

theorem lex_same {c : Char} {cs : List Char} (apart : overlaps c cs = false) :
 SameLexeme (lex true c cs) (lex false c cs) := by
 have no : ¬overlaps c cs = true := by
  rw [apart]
  decide
 rw [overlaps_iff] at no
 unfold lex
 by_cases space : isSpace c = true
 · rw [if_pos space, if_pos space]
   exact .refl _
 rw [if_neg space, if_neg space]
 by_cases name : (isAlphabet c || c = '_') = true
 · rw [if_pos name, if_pos name]
   exact .refl _
 rw [if_neg name, if_neg name]
 by_cases digit : isDecimalDigital c = true
 · rw [if_pos digit, if_pos digit]
   exact .refl _
 rw [if_neg digit, if_neg digit]
 cases delimiters.lookup c with
 | some t => exact .refl _
 | none =>
  change SameLexeme (lexOther true c cs) (lexOther false c cs)
  unfold lexOther
  by_cases slash : c = '/'
  · rw [if_pos slash, if_pos slash]
    by_cases line : cs.head? = some '/'
    · rw [if_pos line, if_pos line]
      exact .refl _
    rw [if_neg line, if_neg line]
    by_cases block : cs.head? = some '*'
    · rw [if_pos block, if_pos block]
      exact lexBlock_same block fun open_ => no ⟨slash, block, open_⟩
    · rw [if_neg block, if_neg block]
      exact .refl _
  · rw [if_neg slash, if_neg slash]
    exact .refl _

theorem lex_overlap {c : Char} {cs : List Char} (overlap : overlaps c cs = true) :
 (lex true c cs).token = some .commentBlock ∧ (lex false c cs).token = some .commentBlock ∧
  (lex true c cs).ending = .took ∧ (lex true c cs).text ≠ (lex false c cs).text := by
 obtain ⟨rfl, star, slash, more⟩ := (overlaps_iff c cs).mp overlap
 obtain ⟨ds, rfl⟩ := List.head?_eq_some_iff.mp star
 obtain ⟨es, rfl⟩ := List.head?_eq_some_iff.mp slash
 cases es with
 | nil => exact absurd rfl more
 | cons d ds =>
  refine ⟨rfl, rfl, rfl, fun same => ?_⟩
  have tails : ([] : Name) = (scanBlock (d :: ds)).1 :=
   (List.cons.inj (List.cons.inj (List.cons.inj same).2).2).2
  exact scanBlock_ne_nil d ds tails.symm

section Calls

variable {whole : Bool} {l m : Lexer} {c : Char} {cs rest : List Char}

theorem lex_space (overlap : Bool) (cs : List Char) (space : isSpace c = true) :
 lex overlap c cs = ⟨none, [], cs, .took⟩ := if_pos space

theorem plainToken_skip {skipComment : Bool} (cs : List Char)
 (skipped : (lex false c cs).token = none ∨
  ∃ t, (lex false c cs).token = some t ∧ (skipComment && isComment t) = true) :
 plainToken skipComment (c :: cs) = plainToken skipComment (lex false c cs).rest := by
 rw [plainToken]
 rcases skipped with none | ⟨t, some_, skip⟩
 · rw [none]
 · rw [some_]
   exact if_pos skip

theorem plainToken_give {skipComment : Bool} (cs : List Char)
 (token : (lex false c cs).token = some t) (given : (skipComment && isComment t) = false) :
 plainToken skipComment (c :: cs) = ((t, (lex false c cs).text), (lex false c cs).rest) := by
 rw [plainToken, token]
 exact if_neg (by rw [given]; decide)

/-- The file is where the text goes on and can be lexed as it stands. -/
structure Before (whole : Bool) (l : Lexer) (rest : List Char) : Prop where
 shows_ : Shows whole l.currentFile (looked rest)
 fine : rest = [] ∨ Fine whole rest

theorem Before.took (shows_ : Shows whole l.currentFile (took whole rest))
 (fine : Fine whole rest) : Before whole l rest := by
 refine ⟨?_, .inr fine⟩
 cases rest with
 | nil =>
  rw [Fine] at fine
  rw [took, if_pos ⟨rfl, fine⟩] at shows_
  exact shows_
 | cons c cs =>
  rw [took_cons] at shows_
  rw [looked_cons]
  exact shows_

theorem Behind.before (fine : Fine whole (c :: cs))
 (behind_ : Behind whole (lex true c cs) t m) : Before whole m (lex true c cs).rest := by
 rw [Fine] at fine
 have shown := behind_.shows_
 cases ending : (lex true c cs).ending with
 | took =>
  rw [ending] at fine shown
  exact .took shown fine.2
 | looked =>
  rw [ending] at fine shown
  exact ⟨shown, fine.2⟩
 | short =>
  rw [ending] at shown
  have none := lex_short c cs ending
  refine ⟨?_, .inl none⟩
  rw [none]
  exact shown

theorem Fine.extra (fine : Fine whole (c :: cs)) : extra whole (lex true c cs).ending = [] := by
 rw [Fine] at fine
 cases ending : (lex true c cs).ending with
 | took | looked => rfl
 | short =>
  rw [ending] at fine
  have no : whole = false := fine.2
  rw [no]
  rfl

theorem readToken_plain (n : ℕ) (size : rest.length ≤ n) (before : Before whole l rest) :
 ∃ m, (Lexer.readToken skipComment).Runs l (plainToken skipComment rest).1.1 m ∧
  kept (plainToken skipComment rest).1.1 m = (plainToken skipComment rest).1.2 ∧
  Before whole m (plainToken skipComment rest).2 := by
 induction n generalizing l rest with
 | zero =>
  obtain rfl := List.length_eq_zero_iff.mp (Nat.le_zero.mp size)
  rw [plainToken]
  exact ⟨_, readToken_end skipComment before.shows_, rfl, before.shows_, .inl rfl⟩
 | succ n ih =>
  cases rest with
  | nil =>
   rw [plainToken]
   exact ⟨_, readToken_end skipComment before.shows_, rfl, before.shows_, .inl rfl⟩
  | cons c cs =>
   have fine : Fine whole (c :: cs) := before.fine.resolve_left (List.cons_ne_nil c cs)
   have shown := before.shows_
   rw [looked_cons] at shown
   have less : cs.length ≤ n := Nat.le_of_succ_le_succ size
   have short : (lex false c cs).rest.length ≤ n := Nat.le_trans (lex_rest_le false c cs) less
   by_cases space : isSpace c = true
   · have lexeme := lex_space false cs space
     obtain ⟨k, round, after⟩ := round_space skipComment shown space
     have next : Fine whole cs := by
      rw [Fine, lex_space true cs space] at fine
      exact fine.2
     rw [plainToken_skip cs (.inl (by rw [lexeme]))]
     rw [lexeme] at short ⊢
     obtain ⟨m, run, text, end_⟩ := ih short (.took after next)
     exact ⟨m, readToken_next skipComment round run, text, end_⟩
   obtain ⟨t, k, round, behind_⟩ := round_lex skipComment shown space
   have same : SameLexeme (lex true c cs) (lex false c cs) := by
    rw [Fine] at fine
    exact lex_same fine.1
   have token : (lex false c cs).token = some t := same.token.symm.trans behind_.token
   have here : Before whole k (lex false c cs).rest := same.rest ▸ behind_.before fine
   rw [outcome] at round
   cases skip : skipComment && isComment t with
   | true =>
    rw [if_pos skip] at round
    rw [plainToken_skip cs (.inr ⟨t, token, skip⟩)]
    obtain ⟨m, run, text, end_⟩ := ih short here
    exact ⟨m, readToken_next skipComment round run, text, end_⟩
   | false =>
    rw [if_neg (by rw [skip]; decide)] at round
    rw [plainToken_give cs token skip]
    refine ⟨k, readToken_last skipComment round, ?_, here⟩
    rw [behind_.kept, fine.extra, List.append_nil]
    exact same.text

theorem reads_plain (skips : List Bool) (before : Before whole l rest) :
 ∃ m, Reads skips l (plainTokens skips rest) m := by
 induction skips generalizing l rest with
 | nil => exact ⟨l, .nil l⟩
 | cons skipComment skips ih =>
  obtain ⟨k, run, text, after⟩ := readToken_plain skipComment rest.length (Nat.le_refl _) before
  obtain ⟨m, more⟩ := ih after
  refine ⟨m, ?_⟩
  have first := Reads.cons run more
  rw [text] at first
  exact first

theorem reads_cons {skipComment : Bool} {skips : List Bool} {text : Name}
 {tokens : List (Token × Name)} {n : Lexer}
 (reads : Reads (skipComment :: skips) l ((t, text) :: tokens) n) :
 ∃ m, (Lexer.readToken skipComment).Runs l t m ∧ kept t m = text ∧ Reads skips m tokens n := by
 cases reads with
 | cons call rest => exact ⟨_, call, rfl, rest⟩

theorem reads_behind_round {skipComment : Bool} {skips : List Bool} {n : Lexer}
 {tokens : List (Token × Name)} (reads : Reads (skipComment :: skips) l tokens n)
 (round : (Lexer.readTokenRound skipComment).Runs l (.inl ()) m) :
 Reads (skipComment :: skips) m tokens n := by
 cases reads with
 | cons call rest =>
  refine .cons ?_ rest
  rcases (runs_loop _ () l _ _).mp call with last | ⟨_, k, next, more⟩
  · obtain ⟨other, -⟩ := last.unique round
    cases other
  · obtain ⟨-, rfl⟩ := next.unique round
    exact more

def Strays (l : Lexer) (rest : List Char) : Prop :=
 ∃ n, ∀ m, ¬Reads (List.replicate n false) l (plainTokens (List.replicate n false) rest) m

theorem strays_first (run : (Lexer.readToken false).Runs l t m)
 (other : (plainToken false rest).1 ≠ (t, kept t m)) : Strays l rest := by
 refine ⟨1, fun n reads => other ?_⟩
 obtain ⟨k, call, text, -⟩ := reads_cons reads
 obtain ⟨same, rfl⟩ := call.unique run
 exact Prod.ext same (text.symm.trans (congrArg (kept · k) same))

theorem Strays.behind (run : (Lexer.readToken false).Runs l t m)
 (strays : Strays m (plainToken false rest).2) : Strays l rest := by
 obtain ⟨n, never⟩ := strays
 refine ⟨n + 1, fun k reads => never k ?_⟩
 obtain ⟨i, call, -, more⟩ := reads_cons reads
 obtain ⟨-, rfl⟩ := call.unique run
 exact more

theorem Strays.behind_round (round : (Lexer.readTokenRound false).Runs l (.inl ()) m)
 (same : plainToken false (c :: cs) = plainToken false cs) (strays : Strays m cs) :
 Strays l (c :: cs) := by
 obtain ⟨n, never⟩ := strays
 cases n with
 | zero => exact absurd (Reads.nil m) (never m)
 | succ n =>
  refine ⟨n + 1, fun k reads => never k ?_⟩
  have here := reads_behind_round reads round
  have tokens : plainTokens (List.replicate (n + 1) false) (c :: cs) =
   plainTokens (List.replicate (n + 1) false) cs := by
   rw [List.replicate_succ, plainTokens, plainTokens, same]
  rw [tokens] at here
  exact here

theorem overlaps_space (cs : List Char) (space : isSpace c = true) : overlaps c cs = false := by
 rw [← Bool.not_eq_true, overlaps_iff]
 rintro ⟨rfl, -⟩
 exact absurd space (by decide)

theorem strays_nil (shows_ : Shows whole l.currentFile (took whole []))
 (other : ¬Fine whole []) : Strays l [] := by
 rw [Fine] at other
 rcases took_nil whole with ⟨-, no⟩ | ⟨some_, -⟩
 · exact absurd no other
 · rw [some_] at shows_
   obtain ⟨m, round⟩ := round_unseen false shows_
   refine strays_first (readToken_last false round) fun same => ?_
   rw [plainToken] at same
   cases (Prod.ext_iff.mp same).1

theorem strays_of_not_fine (n : ℕ) (size : rest.length ≤ n)
 (shows_ : Shows whole l.currentFile (took whole rest)) (other : ¬Fine whole rest) :
 Strays l rest := by
 induction n generalizing l rest with
 | zero =>
  obtain rfl := List.length_eq_zero_iff.mp (Nat.le_zero.mp size)
  exact strays_nil shows_ other
 | succ n ih =>
  cases rest with
  | nil => exact strays_nil shows_ other
  | cons c cs =>
   rw [took_cons] at shows_
   have less : cs.length ≤ n := Nat.le_of_succ_le_succ size
   by_cases space : isSpace c = true
   · obtain ⟨k, round, after⟩ := round_space false shows_ space
     have lexeme := lex_space false cs space
     have next : ¬Fine whole cs := fun fine => other (by
      rw [Fine, lex_space true cs space]
      exact ⟨overlaps_space cs space, fine⟩)
     refine Strays.behind_round round ?_ (ih less after next)
     rw [plainToken_skip cs (.inl (by rw [lexeme])), lexeme]
   obtain ⟨t, k, round, behind_⟩ := round_lex false shows_ space
   have run := readToken_last false round
   cases overlap : overlaps c cs with
   | true =>
    obtain ⟨token, plain, ending, text⟩ := lex_overlap overlap
    obtain rfl : Token.commentBlock = t := Option.some.inj (token.symm.trans behind_.token)
    refine strays_first run fun same => text ?_
    rw [plainToken_give cs plain rfl] at same
    have keep := behind_.kept
    rw [ending, show extra whole .took = [] from rfl, List.append_nil] at keep
    exact keep.symm.trans (Prod.ext_iff.mp same).2.symm
   | false =>
    have same := lex_same overlap
    have token : (lex false c cs).token = some t := same.token.symm.trans behind_.token
    have plain := plainToken_give cs token (Bool.false_and (isComment t))
    have short : (lex true c cs).rest.length ≤ n := Nat.le_trans (lex_rest_le true c cs) less
    have goesOn : Shows whole k.currentFile (took whole (lex true c cs).rest) →
     ¬Fine whole (lex true c cs).rest → Strays l (c :: cs) := fun shown next => by
     refine Strays.behind run ?_
     rw [plain]
     have strays := ih short shown next
     rw [same.rest] at strays
     exact strays
    have shown := behind_.shows_
    rw [Fine] at other
    cases ending : (lex true c cs).ending with
    | took =>
     rw [ending] at shown other
     exact goesOn shown fun fine => other ⟨overlap, fine⟩
    | looked =>
     rw [ending] at shown other
     have more : (lex true c cs).rest ≠ [] := fun none => other ⟨overlap, .inl none⟩
     refine goesOn ?_ fun fine => other ⟨overlap, .inr fine⟩
     rw [took, if_neg fun h => more h.1]
     rw [behind, looked, if_neg more] at shown
     exact shown
    | short =>
     rw [ending] at other
     have yes : whole = true := by
      rw [← Bool.not_eq_false]
      exact fun no => other ⟨overlap, no⟩
     refine strays_first run fun equal => ?_
     rw [plain] at equal
     have keep := (Prod.ext_iff.mp equal).2.trans behind_.kept
     change (lex false c cs).text = (lex true c cs).text ++ _ at keep
     rw [ending, yes, ← same.text] at keep
     exact absurd (List.self_eq_append_right.mp keep) (List.cons_ne_nil _ _)

end Calls

theorem openLexer_shows (text path : List Char) (ascii : ∀ c ∈ text, c.toNat < 128) :
 Shows (decide (text.length % readUnit = 0)) (openLexer text path).currentFile
  (took (decide (text.length % readUnit = 0)) text) := by
 have start : took (decide (text.length % readUnit = 0)) text = some text := by
  refine if_neg ?_
  rintro ⟨rfl, other⟩
  exact absurd other (by decide)
 rw [start]
 exact shows_opened text path ascii

theorem not_plainly_of_not_fine (text path : List Char) (ascii : ∀ c ∈ text, c.toNat < 128)
 (other : ¬Fine (decide (text.length % readUnit = 0)) text) : ¬LexesPlainly text path := by
 obtain ⟨n, never⟩ := strays_of_not_fine text.length (Nat.le_refl _)
  (openLexer_shows text path ascii) other
 intro plainly
 obtain ⟨m, reads⟩ := plainly (List.replicate n false)
 exact never m reads

/-- The lexer of hdi-gen, which meets a text in reads, gives its tokens just where no comment begins
as if its opening star closed it and, in a text of whole reads, the end is looked at with the last
lexeme. -/
theorem lexing_right_iff (text path : List Char) (ascii : ∀ c ∈ text, c.toNat < 128) :
    LexesPlainly text path ↔ Fine (decide (text.length % readUnit = 0)) text := by
  constructor
  · intro plainly
    by_contra other
    exact not_plainly_of_not_fine text path ascii other plainly
  · intro fine skips
    exact reads_plain skips (Before.took (openLexer_shows text path ascii) fine)

theorem ascii_of_all {text : List Char} (all : (text.all fun c => c.toNat < 128) = true) :
 ∀ c ∈ text, c.toNat < 128 :=
 fun c mem => of_decide_eq_true (List.all_eq_true.mp all c mem)

theorem lexing_right_name : LexesPlainly ['f', ';'] [] := by
  refine (lexing_right_iff ['f', ';'] [] (ascii_of_all rfl)).mpr ?_
  have name : lex true 'f' [';'] = ⟨some .identifier, ['f'], [';'], .looked⟩ := by decide
  have last : lex true ';' [] = ⟨some .semicolon, [], [], .took⟩ := by decide
  rw [Fine, name]
  refine ⟨rfl, .inr ?_⟩
  rw [Fine, last]
  refine ⟨rfl, ?_⟩
  change Fine _ []
  rw [Fine]
  decide

/-- An empty file gives a token that is not known, and the star that opens a comment closes it. -/
theorem lexing_goes_wrong :
    (∃ m, (Lexer.readToken false).Runs (openLexer [] []) .unknown m) ∧ ¬LexesPlainly [] [] ∧
      ¬LexesPlainly ['/', '*', '/', 'a'] [] := by
  refine ⟨?_, not_plainly_of_not_fine [] [] (ascii_of_all rfl) ?_,
    not_plainly_of_not_fine ['/', '*', '/', 'a'] [] (ascii_of_all rfl) ?_⟩
  · obtain ⟨m, round⟩ := round_unseen false (openLexer_shows [] [] (ascii_of_all rfl))
    exact ⟨m, readToken_last false round⟩
  · rw [Fine]
    decide
  · rw [Fine]
    rintro ⟨apart, -⟩
    exact absurd apart (by decide)

end DriversFramework.HdiParser
