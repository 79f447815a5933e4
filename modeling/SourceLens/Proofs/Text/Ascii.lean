import Mathlib.Tactic.Common
import SourceLens.Text.Utf8.Lemmas

/-!
# Cutting UTF-8

A byte below 128 is a character of its own, so bytes that spell a text still do so on both sides of
it (`Spelled.cut`).
-/

namespace SourceLens.Utf8

/-- Whether bytes are the UTF-8 form of a text. -/
def Spelled (bytes : Bytes) : Prop := ∃ text, encode text = bytes

theorem encode_decode {bytes : Bytes} (h : Spelled bytes) : encode (decode bytes) = bytes := by
  obtain ⟨text, rfl⟩ := h
  rw [decode_encode]

theorem encode_cons (c : Char) (text : Text) :
    encode (c :: text) = String.utf8EncodeChar c ++ encode text := List.flatMap_cons

namespace Spelled

theorem nil : Spelled [] := ⟨[], rfl⟩

theorem append {a b : Bytes} : Spelled a → Spelled b → Spelled (a ++ b)
  | ⟨x, hx⟩, ⟨y, hy⟩ => ⟨x ++ y, by rw [encode_append, hx, hy]⟩

theorem replicate {b : UInt8} (h : Spelled [b]) (n : Nat) : Spelled (List.replicate n b) := by
  induction n with
  | zero => exact nil
  | succ n ih => exact h.append ih

theorem encodeChar_of_mem {b : UInt8} {c : Char} (h : b ∈ String.utf8EncodeChar c) (hb : b < 128) :
    String.utf8EncodeChar c = [b] := by
  have hlow : b.toNat < 128 := UInt8.lt_iff_toNat_lt.1 hb
  have hhigh {n : Nat} (hn : n < 256) (hn' : 128 ≤ n) : b ≠ UInt8.ofNat n := by
    rintro rfl
    rw [toNat_ofNat hn] at hlow
    omega
  rw [String.utf8EncodeChar] at h ⊢
  generalize c.val.toNat = v at h ⊢
  split_ifs at h ⊢
  · rw [List.mem_singleton.1 h]
  all_goals simp only [List.mem_cons, List.not_mem_nil, or_false] at h
  · rcases h with h | h <;> exact absurd h (hhigh (by omega) (by omega))
  · rcases h with h | h | h <;> exact absurd h (hhigh (by omega) (by omega))
  · rcases h with h | h | h | h <;> exact absurd h (hhigh (by omega) (by omega))

theorem cut {b : UInt8} (hb : b < 128) {x y : Bytes} (h : Spelled (x ++ b :: y)) :
    Spelled x ∧ Spelled y := by
  obtain ⟨text, htext⟩ := h
  induction text generalizing x with
  | nil => simp [encode] at htext
  | cons c text ih =>
    rw [encode_cons] at htext
    -- the byte stands behind the first character, or is that character
    rcases List.append_eq_append_iff.1 htext with ⟨z, rfl, hz⟩ | ⟨z, hc, hz⟩
    · obtain ⟨hx, hy⟩ := ih hz
      exact ⟨.append ⟨[c], by simp [encode]⟩ hx, hy⟩
    · cases z with
      | nil =>
        rw [List.append_nil] at hc
        obtain ⟨-, hy⟩ := ih (x := []) hz.symm
        exact ⟨⟨[c], by simp [encode, hc]⟩, hy⟩
      | cons d z =>
        obtain ⟨rfl, rfl⟩ := List.cons.inj hz
        have hwhole := encodeChar_of_mem (hc ▸ List.mem_append_right x List.mem_cons_self) hb
        rw [hwhole] at hc
        obtain ⟨rfl, rfl⟩ : x = [] ∧ z = [] := by
          have hlength := congrArg List.length hc
          rw [List.length_singleton, List.length_append, List.length_cons] at hlength
          exact ⟨List.length_eq_zero_iff.1 (by omega), List.length_eq_zero_iff.1 (by omega)⟩
        exact ⟨nil, text, rfl⟩

theorem of_ascii_append {x y : Bytes} (h : Spelled (x ++ y)) (hx : ∀ b ∈ x, b < 128) :
    Spelled y := by
  induction x with
  | nil => exact h
  | cons b x ih =>
    obtain ⟨hb, hx⟩ := List.forall_mem_cons.1 hx
    exact ih (cut (x := []) hb h).2 hx

theorem of_append_ascii {x y : Bytes} (h : Spelled (x ++ y)) (hy : ∀ b ∈ y, b < 128) :
    Spelled x := by
  cases y with
  | nil => rwa [List.append_nil] at h
  | cons b y => exact (cut (hy b List.mem_cons_self) h).1

end Spelled

end SourceLens.Utf8
