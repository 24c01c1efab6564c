import Mathlib.Data.List.Induction

/-!
# Regions of an SQL text

What a character belongs to is told by what is in front of it: a quotation mark that is doubled closes and opens, and
block comments nest.
-/

namespace Sdp.Lib

/-! ## Numbering the marks of a text -/

section Numbering

variable {σ τ : Type} (step : σ → Char → σ) (outside : σ → Bool)

/-- The text with the question marks that are outside in their state replaced by the numbers from `i` on. -/
def numberMarks (s : σ) (i : Nat) : List Char → List Char
  | [] => []
  | c :: rest =>
    if c = '?' ∧ outside s = true then '$' :: Nat.toDigits 10 i ++ numberMarks (step s c) (i + 1) rest
    else c :: numberMarks (step s c) i rest

theorem numberMarks_cons {s : σ} {c : Char} (h : c ≠ '?') (i : Nat) (rest : List Char) :
    numberMarks step outside s i (c :: rest) = c :: numberMarks step outside (step s c) i rest := by
  rw [numberMarks, if_neg fun hmark => h hmark.1]

/-- Two readings number alike if and only if they agree at every question mark. -/
theorem numberMarks_eq_iff (step' : τ → Char → τ) (outside' : τ → Bool) {s : σ} {s' : τ} {i : Nat} {text : List Char} :
    numberMarks step outside s i text = numberMarks step' outside' s' i text ↔
      ∀ before after, text = before ++ '?' :: after →
        outside (before.foldl step s) = outside' (before.foldl step' s') := by
  induction text generalizing s s' i with
  | nil => simp [numberMarks]
  | cons c rest ih =>
    -- The mark in front decides the first character, the marks behind it the rest.
    have hsplit : (∀ before after, c :: rest = before ++ '?' :: after →
        outside (before.foldl step s) = outside' (before.foldl step' s')) ↔
        (c = '?' → outside s = outside' s') ∧ ∀ before after, rest = before ++ '?' :: after →
          outside (before.foldl step (step s c)) = outside' (before.foldl step' (step' s' c)) := by
      constructor
      · intro h
        refine ⟨fun hc => h [] rest (by rw [hc]; rfl), fun before after hrest => ?_⟩
        exact h (c :: before) after (by rw [hrest]; rfl)
      · rintro ⟨hfirst, hrest⟩ before after htext
        cases before with
        | nil => exact hfirst (List.cons.inj htext).1
        | cons d before =>
          obtain ⟨rfl, hbehind⟩ := List.cons.inj htext
          exact hrest before after hbehind
    rw [hsplit]
    unfold numberMarks
    by_cases hc : c = '?'
    · subst hc
      cases hs : outside s <;> cases hs' : outside' s' <;> simp [ih]
    · simp [hc, ih]

end Numbering

/-! ## Regions -/

inductive Region
  | sql
  /-- Behind a character that may open a comment. -/
  | dash
  | slash
  | literal
  | identifier
  | line
  | block (depth : Nat)
  /-- Behind a character that may close or open a comment within one. -/
  | blockStar (depth : Nat)
  | blockSlash (depth : Nat)
deriving DecidableEq

namespace Region

def ofSql (c : Char) : Region :=
  if c = '\'' then literal else if c = '"' then identifier
  else if c = '-' then dash else if c = '/' then slash else sql

def leave : Nat → Region
  | 0 => sql
  | depth + 1 => block depth

def ofBlock (depth : Nat) (c : Char) : Region :=
  if c = '*' then blockStar depth else if c = '/' then blockSlash depth else block depth

def step : Region → Char → Region
  | sql, c => ofSql c
  | dash, c => if c = '-' then line else ofSql c
  | slash, c => if c = '*' then block 0 else ofSql c
  | literal, c => if c = '\'' then sql else literal
  | identifier, c => if c = '"' then sql else identifier
  | line, c => if c = '\n' ∨ c = '\r' then sql else line
  | block depth, c => ofBlock depth c
  | blockStar depth, c => if c = '/' then leave depth else ofBlock depth c
  | blockSlash depth, c => if c = '*' then block (depth + 1) else ofBlock depth c

def isComment : Region → Bool
  | line | block _ | blockStar _ | blockSlash _ => true
  | _ => false

/-- The quotation mark that is open in the region. -/
def quote : Region → Option Char
  | literal => some '\''
  | identifier => some '"'
  | _ => none

def isSql (r : Region) : Bool := !r.isComment && r.quote.isNone

end Region

/-- The region behind a text. -/
def regionAfter (before : List Char) : Region := before.foldl Region.step .sql

/-! ## Quotation marks -/

def quoteStep (quote : Option Char) (c : Char) : Option Char :=
  match quote with
  | none => if c = '\'' ∨ c = '"' then some c else none
  | some q => if c = q then none else some q

/-- The quotation mark that is open behind a text, whatever in it is a comment. -/
def openQuote (before : List Char) : Option Char := before.foldl quoteStep none

theorem quote_ofSql (c : Char) : (Region.ofSql c).quote = quoteStep none c := by
  unfold Region.ofSql quoteStep
  split_ifs <;> simp_all [Region.quote]

theorem quote_ofBlock (depth : Nat) (c : Char) : (Region.ofBlock depth c).quote = none := by
  unfold Region.ofBlock
  split_ifs <;> rfl

theorem quote_of_comment {r : Region} (h : r.isComment = true) : r.quote = none := by
  cases r with
  | sql | dash | slash | literal | identifier => cases h
  | line | block depth | blockStar depth | blockSlash depth => rfl

theorem quote_step_of_comment {r : Region} (h : r.isComment = true) (c : Char) : (r.step c).quote = none := by
  cases r with
  | sql | dash | slash | literal | identifier => cases h
  | line =>
    simp only [Region.step]
    split_ifs <;> rfl
  | block depth => exact quote_ofBlock depth c
  | blockStar depth =>
    simp only [Region.step]
    split_ifs
    · cases depth <;> rfl
    · exact quote_ofBlock depth c
  | blockSlash depth =>
    simp only [Region.step]
    split_ifs
    · rfl
    · exact quote_ofBlock depth c

theorem quote_step {r : Region} (h : r.isComment = false) (c : Char) : (r.step c).quote = quoteStep r.quote c := by
  cases r with
  | line | block depth | blockStar depth | blockSlash depth => cases h
  | sql => exact quote_ofSql c
  | dash | slash =>
    simp only [Region.step]
    split_ifs with hc
    · rw [hc]
      rfl
    · exact quote_ofSql c
  | literal | identifier =>
    simp only [Region.step, Region.quote, quoteStep]
    split_ifs <;> rfl

/-! ## What comments hold -/

/-- The other of the two quotation marks. -/
def otherMark (c : Char) : Char := if c = '\'' then '"' else if c = '"' then '\'' else c

/-- The character is a quotation mark in a quotation of the other kind. -/
def crosses (quote : Option Char) (c : Char) : Bool := quote.any fun q => c = otherMark q

/-- Whether the quotations behind the region hold an odd number of marks of the other kind; `exchanged` is so before. -/
def exchangedAfter : Region → Bool → List Char → Bool
  | _, exchanged, [] => exchanged
  | r, exchanged, c :: rest => exchangedAfter (r.step c) (exchanged ^^ crosses r.quote c) rest

/-- What the comments behind the region hold, with the two marks exchanged where the quotations so far hold an odd number of
marks of the other kind. -/
def commentText : Region → Bool → List Char → List Char
  | _, _, [] => []
  | r, exchanged, c :: rest =>
    let text := commentText (r.step c) (exchanged ^^ crosses r.quote c) rest
    if r.isComment then (if exchanged then otherMark c else c) :: text else text

/-- The quotation that is open behind a text, of the one of its region and the one that its comments leave open. -/
def joinQuotes (quote : Option Char) (exchanged : Bool) (left : Option Char) : Option Char :=
  let left := if exchanged then left.map otherMark else left
  match quote with
  | none => left
  | some q => if left = none then some q else if left = some q then none else left

/-- A quotation that can be open. -/
def IsQuote (quote : Option Char) : Prop := quote = none ∨ quote = some '\'' ∨ quote = some '"'

theorem isQuote_region (r : Region) : IsQuote r.quote := by
  cases r with
  | literal => exact .inr (.inl rfl)
  | identifier => exact .inr (.inr rfl)
  | sql | dash | slash | line | block depth | blockStar depth | blockSlash depth => exact .inl rfl

theorem isQuote_step {quote : Option Char} (h : IsQuote quote) (c : Char) : IsQuote (quoteStep quote c) := by
  rcases h with rfl | rfl | rfl <;> simp only [quoteStep] <;> split_ifs <;> simp_all [IsQuote]

theorem quoteStep_joinQuotes {quote left : Option Char} (hquote : IsQuote quote) (hleft : IsQuote left)
    (exchanged : Bool) (c : Char) :
    quoteStep (joinQuotes quote exchanged left) c =
      joinQuotes (quoteStep quote c) (exchanged ^^ crosses quote c) left := by
  by_cases hsingle : c = '\''
  · subst hsingle
    rcases hquote with rfl | rfl | rfl <;> rcases hleft with rfl | rfl | rfl <;> cases exchanged <;> decide
  · by_cases hdouble : c = '"'
    · subst hdouble
      rcases hquote with rfl | rfl | rfl <;> rcases hleft with rfl | rfl | rfl <;> cases exchanged <;> decide
    · rcases hquote with rfl | rfl | rfl <;> rcases hleft with rfl | rfl | rfl <;> cases exchanged <;>
        simp [joinQuotes, quoteStep, crosses, otherMark, hsingle, hdouble]

theorem quoteStep_joinQuotes_of_comment {left : Option Char} (hleft : IsQuote left) (exchanged : Bool) (c : Char) :
    quoteStep (joinQuotes none exchanged left) c =
      joinQuotes none exchanged (quoteStep left (if exchanged then otherMark c else c)) := by
  by_cases hsingle : c = '\''
  · subst hsingle
    rcases hleft with rfl | rfl | rfl <;> cases exchanged <;> decide
  · by_cases hdouble : c = '"'
    · subst hdouble
      rcases hleft with rfl | rfl | rfl <;> cases exchanged <;> decide
    · rcases hleft with rfl | rfl | rfl <;> cases exchanged <;>
        simp [joinQuotes, quoteStep, otherMark, hsingle, hdouble]

/-- A reading that knows no comments has open what the region and the comments have open together. -/
theorem foldl_quoteStep_joinQuotes (r : Region) (exchanged : Bool) {left : Option Char} (hleft : IsQuote left)
    (text : List Char) :
    text.foldl quoteStep (joinQuotes r.quote exchanged left) =
      joinQuotes (text.foldl Region.step r).quote (exchangedAfter r exchanged text)
        ((commentText r exchanged text).foldl quoteStep left) := by
  induction text generalizing r exchanged left with
  | nil => rfl
  | cons c text ih =>
    rw [List.foldl_cons, List.foldl_cons, exchangedAfter, commentText]
    cases hcomment : r.isComment with
    | true =>
      have hnone := quote_of_comment hcomment
      have hcrosses : crosses r.quote c = false := by rw [hnone]; rfl
      have hstep : joinQuotes none exchanged (quoteStep left (if exchanged then otherMark c else c)) =
          joinQuotes (r.step c).quote exchanged (quoteStep left (if exchanged then otherMark c else c)) := by
        rw [quote_step_of_comment hcomment]
      rw [hnone, quoteStep_joinQuotes_of_comment hleft, hstep, ih _ _ (isQuote_step hleft _), ← hnone, hcrosses,
        Bool.xor_false]
      rfl
    | false =>
      rw [quoteStep_joinQuotes (isQuote_region r) hleft, ← quote_step hcomment, ih _ _ hleft]
      rfl

theorem openQuote_eq (before : List Char) :
    openQuote before = joinQuotes (regionAfter before).quote (exchangedAfter .sql false before)
      (openQuote (commentText .sql false before)) :=
  foldl_quoteStep_joinQuotes .sql false (.inl rfl) before

theorem joinQuotes_eq_none (exchanged : Bool) (left : Option Char) :
    joinQuotes none exchanged left = none ↔ left = none := by
  cases exchanged <;> simp [joinQuotes]

theorem otherMark_otherMark (c : Char) : otherMark (otherMark c) = c := by
  unfold otherMark
  split_ifs <;> simp_all

theorem joinQuotes_some_eq_none (q : Char) (exchanged : Bool) (left : Option Char) :
    joinQuotes (some q) exchanged left = none ↔ left = some (if exchanged then otherMark q else q) := by
  cases left with
  | none => cases exchanged <;> simp [joinQuotes]
  | some mark =>
    cases exchanged with
    | false => simp [joinQuotes]
    | true =>
      have hswap : otherMark mark = q ↔ mark = otherMark q :=
        ⟨fun h => by rw [← h, otherMark_otherMark], fun h => by rw [h, otherMark_otherMark]⟩
      simp [joinQuotes, hswap]

theorem openQuote_commentText_of_plain (r : Region) (exchanged : Bool) {text : List Char}
    (h : ∀ before c after, text = before ++ c :: after → (before.foldl Region.step r).isComment = true →
      c ≠ '\'' ∧ c ≠ '"') : (commentText r exchanged text).foldl quoteStep none = none := by
  induction text generalizing r exchanged with
  | nil => rfl
  | cons c text ih =>
    have hrest := ih (r.step c) (exchanged ^^ crosses r.quote c) fun before d after heq =>
      h (c :: before) d after (by rw [heq]; rfl)
    rw [commentText]
    split
    · next hcomment =>
      obtain ⟨hsingle, hdouble⟩ := h [] c text rfl hcomment
      have hsame : (if exchanged then otherMark c else c) = c := by simp [otherMark, hsingle, hdouble]
      rw [List.foldl_cons, hsame, quoteStep, if_neg (not_or.mpr ⟨hsingle, hdouble⟩)]
      exact hrest
    · exact hrest

end Sdp.Lib
