import Sdp.Code.SqlPlaceholders
import Sdp.Lib.SqlText

/-!
# Numbering placeholders

The loop numbers the question marks at which no quotation mark is open. It knows no comments, so that what a comment
holds is read as any other text: the comments in front of a question mark must not leave open what hides it or shows it.
-/

namespace Sdp.SqlPlaceholders

open Sdp.Lib

/-- The quotation mark of the two flags, of which at most one is up. -/
def quoteOf (inSingleQuotedString inDoubleQuotedString : Bool) : Option Char :=
  if inSingleQuotedString then some '\'' else if inDoubleQuotedString then some '"' else none

theorem quoteStep_single (single : Bool) : quoteStep (quoteOf single false) '\'' = quoteOf (!single) false := by
  cases single <;> rfl

theorem quoteStep_double (double : Bool) : quoteStep (quoteOf false double) '"' = quoteOf false (!double) := by
  cases double <;> rfl

theorem quoteStep_other {single double : Bool} {c : Char} (hsingle : ¬(c = '\'' ∧ (!double) = true))
    (hdouble : ¬(c = '"' ∧ (!single) = true)) (h : (single && double) = false) :
    quoteStep (quoteOf single double) c = quoteOf single double := by
  cases single <;> cases double <;> simp_all [quoteOf, quoteStep]

theorem replaceLoop_eq (i : Nat) (single double : Bool) (text : List Char) (h : (single && double) = false) :
    replaceLoop i single double text = numberMarks quoteStep Option.isNone (quoteOf single double) i text := by
  induction i, single, double, text using replaceLoop.induct with
  | case1 => rfl
  | case2 i single double char hquote next after hdoubled ih =>
    -- A doubled quotation mark closes the literal and opens it again.
    obtain ⟨rfl, hdouble⟩ := hquote
    obtain ⟨rfl, rfl⟩ := hdoubled
    obtain rfl : double = false := by simpa using hdouble
    rw [replaceLoop.eq_def, numberMarks_cons _ _ (by decide), numberMarks_cons _ _ (by decide), quoteStep_single,
      quoteStep_single, Bool.not_not, ← ih h]
    rfl
  | case3 i single double char hquote next after hlone ih =>
    obtain ⟨rfl, hdouble⟩ := hquote
    obtain rfl : double = false := by simpa using hdouble
    rw [replaceLoop.eq_def, numberMarks_cons _ _ (by decide), quoteStep_single, ← ih (by simp)]
    simp [hlone]
  | case4 i single double char hquote =>
    obtain ⟨rfl, hdouble⟩ := hquote
    rw [replaceLoop.eq_def, numberMarks_cons _ _ (by decide), numberMarks]
    simp [hdouble]
  | case5 i single double char rest hsingle hquote ih =>
    obtain ⟨rfl, hsingled⟩ := hquote
    obtain rfl : single = false := by simpa using hsingled
    rw [replaceLoop.eq_def, numberMarks_cons _ _ (by decide), quoteStep_double, ← ih (by simp)]
    simp
  | case6 i single double char rest hsingle hdouble hmark ih =>
    obtain ⟨rfl, hsingled, hdoubled⟩ := hmark
    obtain rfl : single = false := by simpa using hsingled
    obtain rfl : double = false := by simpa using hdoubled
    rw [replaceLoop.eq_def, numberMarks, quoteStep_other hsingle hdouble h, ← ih h]
    simp [quoteOf]
  | case7 i single double char rest hsingle hdouble hmark ih =>
    have hinside : ¬(char = '?' ∧ (quoteOf single double).isNone = true) := by
      rintro ⟨rfl, hnone⟩
      cases single <;> cases double <;> simp_all [quoteOf]
    rw [replaceLoop.eq_def, numberMarks, quoteStep_other hsingle hdouble h, ← ih h, if_neg hinside]
    simp only [if_neg hsingle, if_neg hdouble, if_neg hmark]

/-- The question marks outside literals, quoted identifiers and comments, numbered. -/
def numberedPlaceholders (query : String) : String :=
  String.ofList (numberMarks Region.step Region.isSql .sql 1 query.toList)

/-- What the comments in front of a question mark hold, read on its own, leaves a quotation open at a question mark of a
comment, none at a placeholder, and at one in a quotation not this one. The marks of a comment count as exchanged where
the quotations in front of it hold an odd number of marks of the other kind. -/
def CommentsClosed (query : List Char) : Prop :=
  ∀ before after, query = before ++ '?' :: after →
    match (regionAfter before).quote with
    | some mark =>
      openQuote (commentText .sql false before) ≠
        some (if exchangedAfter .sql false before then otherMark mark else mark)
    | none => (openQuote (commentText .sql false before)).isSome = (regionAfter before).isComment

/-- The rewriting follows SQL if and only if the comments leave open what they may. -/
theorem placeholders_faithful_iff (query : String) :
    replacePositionalPlaceholders query = numberedPlaceholders query ↔ CommentsClosed query.toList := by
  have hloop := replaceLoop_eq 1 false false query.toList rfl
  rw [replacePositionalPlaceholders, numberedPlaceholders, String.ofList_inj, hloop, numberMarks_eq_iff]
  refine forall_congr' fun before => forall_congr' fun after => imp_congr_right fun _ => ?_
  have hopen : before.foldl quoteStep (quoteOf false false) = openQuote before := rfl
  rw [hopen, openQuote_eq, Bool.eq_iff_iff]
  cases hquote : (regionAfter before).quote with
  | some mark =>
    have hregion : (before.foldl Region.step .sql).isSql = false := by
      rw [← regionAfter, Region.isSql, hquote]
      exact Bool.and_false _
    simp only [hregion, Bool.false_eq_true, iff_false, Option.isNone_iff_eq_none, joinQuotes_some_eq_none]
  | none =>
    have hregion : (before.foldl Region.step .sql).isSql = !(regionAfter before).isComment := by
      rw [← regionAfter, Region.isSql, hquote]
      exact Bool.and_true _
    simp only [hregion, Option.isNone_iff_eq_none, joinQuotes_eq_none, Bool.not_eq_true']
    cases (regionAfter before).isComment <;> cases openQuote (commentText .sql false before) <;> simp

/-- Texts whose comments hold neither quotation marks nor question marks are read as SQL. -/
theorem commentsClosed_of_plain {query : List Char}
    (h : ∀ before c after, query = before ++ c :: after → (regionAfter before).isComment = true →
      c ≠ '\'' ∧ c ≠ '"' ∧ c ≠ '?') : CommentsClosed query := by
  intro before after heq
  have hregion : (regionAfter before).isComment = false := by
    by_contra hcomment
    exact (h before '?' after heq (by simpa using hcomment)).2.2 rfl
  have hopen : openQuote (commentText .sql false before) = none :=
    openQuote_commentText_of_plain .sql false fun front c rest hfront hcomment => by
      have hc := h front c (rest ++ '?' :: after) (by rw [heq, hfront, List.append_assoc]; rfl) hcomment
      exact ⟨hc.1, hc.2.1⟩
  rw [hopen, hregion]
  cases (regionAfter before).quote with
  | none => rfl
  | some mark => simp

/-- The apostrophe of a comment hides the placeholder behind it. -/
theorem comment_hides_placeholder :
    replacePositionalPlaceholders "-- it's\n?" = "-- it's\n?" ∧ numberedPlaceholders "-- it's\n?" = "-- it's\n$1" := by
  have hchars : "-- it's\n?".toList = ['-', '-', ' ', 'i', 't', '\'', 's', '\n', '?'] := rfl
  rw [replacePositionalPlaceholders, numberedPlaceholders, hchars]
  exact ⟨rfl, rfl⟩

end Sdp.SqlPlaceholders
