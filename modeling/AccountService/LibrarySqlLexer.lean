import Mathlib.Data.List.Basic
import Mathlib.Tactic.Common

/-! How a MySQL server with backslash escapes cuts a statement into tokens: quoted text, quoted names,
comments, words and single symbols. Every byte outside quoted text is kept in some token, blanks included, so
that two statements with the same tokens differ at most in how their quoted text is written. A comment that
starts with `/*!` is code. -/

namespace SqlLexer

inductive Quote
  | single | double | backtick
  deriving DecidableEq

def Quote.byte : Quote → UInt8
  | .single => 39
  | .double => 34
  | .backtick => 96

/-- The quote that a byte opens. -/
def quote? (b : UInt8) : Option Quote :=
  if b = 39 then some .single else if b = 34 then some .double else if b = 96 then some .backtick else none

inductive Token
  | text (quote : Quote) (value : List UInt8)
  | word (value : List UInt8)
  | symbol (b : UInt8)
  | comment (text : List UInt8)
  | broken
  deriving DecidableEq

/-- Where the lexer is inside a statement. -/
inductive State
  | plain (word : List UInt8)
  | quoted (q : Quote) (value : List UInt8)
  | escaped (q : Quote) (value : List UInt8)
  | closing (q : Quote) (value : List UInt8)
  | dash
  | dashes
  | slash
  | slashStar
  | line (text : List UInt8)
  | block (text : List UInt8)
  | blockStar (text : List UInt8)
  deriving DecidableEq

/-- A letter, a digit, `_`, `$` or a byte of a multi-byte character. -/
def isWordByte (b : UInt8) : Bool :=
  (97 ≤ b && b ≤ 122) || (65 ≤ b && b ≤ 90) || (48 ≤ b && b ≤ 57) || b = 95 || b = 36 || 128 ≤ b

def isBlank (b : UInt8) : Bool := b ≤ 32 || b = 127

/-- What a backslash followed by a byte stands for. -/
def unescape (b : UInt8) : List UInt8 :=
  if b = 48 then [0]
  else if b = 98 then [8]
  else if b = 110 then [10]
  else if b = 114 then [13]
  else if b = 116 then [9]
  else if b = 90 then [26]
  else if b = 37 || b = 95 then [92, b]
  else [b]

def wordTokens (word : List UInt8) : List Token := if word = [] then [] else [.word word]

/-- A byte at which a new token starts. -/
def enter (b : UInt8) : List Token × State :=
  match quote? b with
  | some q => ([], .quoted q [])
  | none =>
      if b = 35 then ([], .line [b])
      else if b = 45 then ([], .dash)
      else if b = 47 then ([], .slash)
      else if isWordByte b then ([], .plain [b])
      else ([.symbol b], .plain [])

/-- The tokens that one more byte completes. -/
def step : State → UInt8 → List Token × State
  | .plain word, b =>
      if isWordByte b then ([], .plain (word ++ [b])) else (wordTokens word ++ (enter b).1, (enter b).2)
  | .quoted q value, b =>
      if b = q.byte then ([], .closing q value)
      -- a backslash is an ordinary byte of a quoted name
      else if b = 92 ∧ q ≠ .backtick then ([], .escaped q value)
      else ([], .quoted q (value ++ [b]))
  | .escaped q value, b => ([], .quoted q (value ++ unescape b))
  | .closing q value, b =>
      if b = q.byte then ([], .quoted q (value ++ [b])) else (.text q value :: (enter b).1, (enter b).2)
  | .dash, b => if b = 45 then ([], .dashes) else (.symbol 45 :: (enter b).1, (enter b).2)
  | .dashes, b =>
      if b = 45 then ([.symbol 45], .dashes)
      else if isBlank b then ([], .line [45, 45, b])
      else (.symbol 45 :: .symbol 45 :: (enter b).1, (enter b).2)
  | .slash, b => if b = 42 then ([], .slashStar) else (.symbol 47 :: (enter b).1, (enter b).2)
  | .slashStar, b =>
      if b = 33 then ([.symbol 47, .symbol 42, .symbol 33], .plain [])
      else if b = 42 then ([], .blockStar [b])
      else ([], .block [b])
  | .line text, b => if b = 10 then ([.comment text, .symbol b], .plain []) else ([], .line (text ++ [b]))
  | .block text, b => if b = 42 then ([], .blockStar (text ++ [b])) else ([], .block (text ++ [b]))
  | .blockStar text, b =>
      if b = 47 then ([.comment text], .plain [])
      else if b = 42 then ([], .blockStar (text ++ [b]))
      else ([], .block (text ++ [b]))

/-- The tokens that the end of the statement completes. -/
def flush : State → List Token
  | .plain word => wordTokens word
  | .closing q value => [.text q value]
  | .dash => [.symbol 45]
  | .dashes => [.comment [45, 45]]
  | .slash => [.symbol 47]
  | .line text => [.comment text]
  | .quoted _ _ | .escaped _ _ | .slashStar | .block _ | .blockStar _ => [.broken]

/-- The tokens of a text that is read from a state on. -/
def lexFrom : State → List UInt8 → List Token
  | s, [] => flush s
  | s, b :: rest => (step s b).1 ++ lexFrom (step s b).2 rest

def lex (statement : List UInt8) : List Token := lexFrom (.plain []) statement

/-- The tokens that a text completes when it is read from a state on. -/
def emitted : State → List UInt8 → List Token
  | _, [] => []
  | s, b :: rest => (step s b).1 ++ emitted (step s b).2 rest

/-- The state after a text. -/
def after (s : State) (text : List UInt8) : State := text.foldl (fun s b => (step s b).2) s

/-- Outside quoted text and comments. -/
def outside : State → Bool
  | .plain _ | .closing _ _ | .dash | .dashes | .slash => true
  | .quoted _ _ | .escaped _ _ | .slashStar | .line _ | .block _ | .blockStar _ => false

/-! ### Texts one after the other -/

theorem lexFrom_append (s : State) (first second : List UInt8) :
    lexFrom s (first ++ second) = emitted s first ++ lexFrom (after s first) second := by
  induction first generalizing s with
  | nil => rfl
  | cons b rest ih => simp [lexFrom, emitted, after, ih]

theorem emitted_append (s : State) (first second : List UInt8) :
    emitted s (first ++ second) = emitted s first ++ emitted (after s first) second := by
  induction first generalizing s with
  | nil => rfl
  | cons b rest ih => simp [emitted, after, ih]

theorem after_append (s : State) (first second : List UInt8) :
    after s (first ++ second) = after (after s first) second :=
  List.foldl_append

/-- A byte that no token outside quoted text continues over. -/
def isDelimiter (b : UInt8) : Bool := b = 32 || b = 44 || b = 41

/-- The text ends or goes on with a delimiter. -/
def Delimited (text : List UInt8) : Prop := ∀ b ∈ text.head?, isDelimiter b = true

instance (text : List UInt8) : Decidable (Delimited text) :=
  match text with
  | [] => isTrue (by simp [Delimited])
  | b :: _ => decidable_of_iff (isDelimiter b = true) (by simp [Delimited])

/-- A finished word or quoted text is not changed by what follows a delimiter. -/
theorem lexFrom_delimited {s : State} (hs : (∃ word, s = .plain word) ∨ ∃ q value, s = .closing q value)
    {text : List UInt8} (h : Delimited text) : lexFrom s text = flush s ++ lexFrom (.plain []) text := by
  cases text with
  | nil => rcases hs with ⟨word, rfl⟩ | ⟨q, value, rfl⟩ <;> simp [lexFrom, flush, wordTokens]
  | cons b rest =>
      have hb : b = 32 ∨ b = 44 ∨ b = 41 := by
        simpa [isDelimiter, or_assoc] using h b rfl
      have hword : isWordByte b = false := by rcases hb with rfl | rfl | rfl <;> decide
      rcases hs with ⟨word, rfl⟩ | ⟨q, value, rfl⟩
      · simp [lexFrom, step, flush, hword, wordTokens]
      · have hquote : b ≠ q.byte := by rcases hb with rfl | rfl | rfl <;> cases q <;> decide
        simp [lexFrom, step, flush, hword, hquote, wordTokens]

/-- Right after a blank or an opening bracket, outside quoted text and comments, a new token starts. -/
theorem plain_of_outside {s : State} {b : UInt8} (hb : b = 32 ∨ b = 40) (h : outside (step s b).2 = true) :
    (step s b).2 = .plain [] := by
  have henter : (enter b).2 = .plain [] := by rcases hb with rfl | rfl <;> decide
  have hword : isWordByte b = false := by rcases hb with rfl | rfl <;> decide
  have hcases : b ≠ 45 ∧ b ≠ 42 ∧ b ≠ 33 ∧ b ≠ 10 ∧ b ≠ 47 ∧ b ≠ 92 := by rcases hb with rfl | rfl <;> decide
  obtain ⟨h45, h42, h33, h10, h47, h92⟩ := hcases
  cases s with
  | plain word => simp [step, hword, henter]
  | quoted q value =>
      have hquote : b ≠ q.byte := by rcases hb with rfl | rfl <;> cases q <;> decide
      simp [step, hquote, h92, outside] at h
  | escaped q value => simp [step, outside] at h
  | closing q value =>
      have hquote : b ≠ q.byte := by rcases hb with rfl | rfl <;> cases q <;> decide
      simp [step, hquote, henter]
  | dash => simp [step, h45, henter]
  | dashes =>
      by_cases hblank : isBlank b = true
      · simp [step, h45, hblank, outside] at h
      · simp [step, h45, hblank, henter]
  | slash => simp [step, h42, henter]
  | slashStar => simp [step, h33, h42, outside] at h
  | line text => simp [step, h10, outside] at h
  | block text => simp [step, h42, outside] at h
  | blockStar text => simp [step, h47, h42, outside] at h

/-- The symbol of a byte comes from that byte. -/
theorem symbol_not_mem_step {mark : UInt8} (hmark : mark ≠ 45 ∧ mark ≠ 47 ∧ mark ≠ 42 ∧ mark ≠ 33 ∧ mark ≠ 10)
    (s : State) {b : UInt8} (hb : b ≠ mark) : .symbol mark ∉ (step s b).1 := by
  have henter : .symbol mark ∉ (enter b).1 := by
    unfold enter
    repeat' split
    all_goals simp [Ne.symm hb]
  have hwords : ∀ word, .symbol mark ∉ wordTokens word := by
    intro word
    unfold wordTokens
    split <;> simp
  obtain ⟨h45, h47, h42, h33, h10⟩ := hmark
  cases s <;> simp only [step] <;> repeat' split
  all_goals simp_all

theorem symbol_not_mem_flush {mark : UInt8} (hmark : mark ≠ 45 ∧ mark ≠ 47) (s : State) :
    .symbol mark ∉ flush s := by
  cases s <;> simp [flush, wordTokens, hmark]

end SqlLexer
