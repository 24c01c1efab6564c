import Sdp.Code.Idempotency
import Sdp.Lib.LengthPrefixed

/-!
# Request ids of a provider

The parts of the scope and the key stand behind their lengths, so that no other parts make the text that is hashed.
-/

open Sdp.Lib Sdp.Lib.LengthPrefixed

namespace Sdp.Idempotency

theorem colon_notMem_digits (n : Nat) : ':' ∉ Nat.toDigits 10 n := fun h =>
  absurd (Nat.isDigit_of_mem_toDigits (by decide) (by decide) h) (by decide)

/-- The lengths of strings, in UTF-16 code units and decimal digits. -/
def lengthFormat : Format Char where
  number := Nat.toDigits 10
  measure part := utf16Length (String.ofList part)
  mark := ':'
  number_injective _ _ := Json.toDigits_inj
  mark_notMem := colon_notMem_digits
  measure_append s t := by simp [utf16Length]
  measure_zero s h := by
    cases s with
    | nil => rfl
    | cons c s =>
      simp only [utf16Length, String.toList_ofList, List.map_cons, List.sum_cons] at h
      split at h <;> omega

theorem requestIdMaterial_eq (parts : List String) :
    requestIdMaterial parts = String.ofList (lengthFormat.text ['|'] (parts.map String.toList)) := by
  unfold requestIdMaterial Format.text
  rw [List.map_map]
  refine congrArg (fun l => String.ofList (List.intercalate ['|'] l)) (List.map_congr_left fun part _ => ?_)
  simp [lengthPrefixed, Format.prefixed, lengthFormat]

/-- What is hashed tells the parts, whatever they hold; and two intents have one id if and only if the hashes of their
texts, which differ, agree in what the id keeps of them. -/
theorem request_ids_decodable :
    (∀ parts parts' : List String, requestIdMaterial parts = requestIdMaterial parts' ↔ parts = parts') ∧
    ∀ (sha256 : String → List Char) (scope scope' : List String) (key key' : String),
      deriveProviderRequestId sha256 scope key = deriveProviderRequestId sha256 scope' key' ↔
        scope = scope' ∧ key = key' ∨
          requestIdMaterial (scope ++ [key]) ≠ requestIdMaterial (scope' ++ [key']) ∧
            requestIdOfHash (sha256 (requestIdMaterial (scope ++ [key]))) =
              requestIdOfHash (sha256 (requestIdMaterial (scope' ++ [key']))) := by
  have hmaterial (parts parts' : List String) : requestIdMaterial parts = requestIdMaterial parts' ↔ parts = parts' := by
    refine ⟨fun h => ?_, congrArg requestIdMaterial⟩
    rw [requestIdMaterial_eq, requestIdMaterial_eq, String.ofList_inj] at h
    exact List.map_injective_iff.mpr (fun _ _ => String.toList_inj.mp) (lengthFormat.text_injective ['|'] h)
  refine ⟨hmaterial, fun sha256 scope scope' key key' => ?_⟩
  constructor
  · intro hid
    by_cases htext : requestIdMaterial (scope ++ [key]) = requestIdMaterial (scope' ++ [key'])
    · obtain ⟨hscope, hkey⟩ := List.append_inj' ((hmaterial _ _).mp htext) rfl
      exact .inl ⟨hscope, (List.cons.inj hkey).1⟩
    · exact .inr ⟨htext, hid⟩
  · rintro (⟨rfl, rfl⟩ | ⟨-, hid⟩)
    · rfl
    · exact hid

/-- A part that looks like two is not taken for them; and a hash that is always the same collides. -/
theorem lookalike_is_another_intent : requestIdMaterial ["a|1:b"] ≠ requestIdMaterial ["a", "b"] ∧
    deriveProviderRequestId (fun _ => List.replicate 64 '0') ["a|1:b"] "key" =
      deriveProviderRequestId (fun _ => List.replicate 64 '0') ["a", "b"] "key" := by
  obtain ⟨hmaterial, hid⟩ := request_ids_decodable
  refine ⟨fun h => ?_, (hid _ _ _ _ _).mpr (.inr ⟨fun h => ?_, rfl⟩)⟩
  · have hsame := (hmaterial ["a|1:b"] ["a", "b"]).mp h
    simp at hsame
  · have hsame := (hmaterial _ _).mp h
    simp at hsame

end Sdp.Idempotency
