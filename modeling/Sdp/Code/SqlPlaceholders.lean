import Mathlib.Logic.Function.Basic

/-!
# Positional placeholders

From `db/client.ts`.
-/

namespace Sdp.SqlPlaceholders

/-- The loop of `replacePositionalPlaceholders`. -/
def replaceLoop (placeholderIndex : Nat) (inSingleQuotedString inDoubleQuotedString : Bool) : List Char → List Char
  | [] => []
  | char :: rest =>
    if char = '\'' ∧ !inDoubleQuotedString then
      match rest with
      | next :: after =>
        if inSingleQuotedString ∧ next = '\'' then
          char :: next :: replaceLoop placeholderIndex inSingleQuotedString inDoubleQuotedString after
        else char :: replaceLoop placeholderIndex (!inSingleQuotedString) inDoubleQuotedString (next :: after)
      | [] => [char]
    else if char = '"' ∧ !inSingleQuotedString then
      char :: replaceLoop placeholderIndex inSingleQuotedString (!inDoubleQuotedString) rest
    else if char = '?' ∧ !inSingleQuotedString ∧ !inDoubleQuotedString then
      '$' :: Nat.toDigits 10 placeholderIndex ++
        replaceLoop (placeholderIndex + 1) inSingleQuotedString inDoubleQuotedString rest
    else char :: replaceLoop placeholderIndex inSingleQuotedString inDoubleQuotedString rest

def replacePositionalPlaceholders (query : String) : String :=
  String.ofList (replaceLoop 1 false false query.toList)

end Sdp.SqlPlaceholders
