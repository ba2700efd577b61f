import WebTransport.Errors
import WebTransport.Support.Blocks

/-!
# The text of a close reason

A close reason goes out as the UTF-8 encoding of a text, and comes in as bytes
that are decoded with replacement characters.  What has gone out whole comes in
unchanged; of a reason that was cut off on its way the whole characters remain,
with one replacement character for the rest of the one that was cut.
-/

namespace WebTransport

open Support

def asBytes (s : String) : List UInt8 :=
  s.toByteArray.data.toList

theorem asBytes_eq (s : String) : asBytes s = s.toList.flatMap String.utf8EncodeChar := by
  rw [asBytes, ← String.utf8Encode_toList, List.utf8Encode,
    List.toList_data_toByteArray]

section Sequences

variable {b c d e : UInt8} {rest : List UInt8}

theorem utf8LossyChars_one (hb : utf8CharWidth b = 1) :
    utf8LossyChars (b :: rest) = Char.ofNat b.toNat :: utf8LossyChars rest := by
  rw [utf8LossyChars.eq_def]
  simp only [hb]

theorem utf8LossyChars_two (hb : utf8CharWidth b = 2) (hc : isContinuation c = true) :
    utf8LossyChars (b :: c :: rest) =
      Char.ofNat (low b 5 * 64 + low c 6) :: utf8LossyChars rest := by
  rw [utf8LossyChars.eq_def]
  simp only [hb, hc, if_true]

theorem utf8LossyChars_three (hb : utf8CharWidth b = 3)
    (hc : isSecondByte b c = true) (hd : isContinuation d = true) :
    utf8LossyChars (b :: c :: d :: rest) =
      Char.ofNat (low b 4 * 4096 + low c 6 * 64 + low d 6) ::
        utf8LossyChars rest := by
  rw [utf8LossyChars.eq_def]
  simp only [hb, hc, hd, if_true]

theorem utf8LossyChars_four (hb : utf8CharWidth b = 4)
    (hc : isSecondByte b c = true) (hd : isContinuation d = true)
    (he : isContinuation e = true) :
    utf8LossyChars (b :: c :: d :: e :: rest) =
      Char.ofNat (low b 3 * 262144 + low c 6 * 4096 + low d 6 * 64 + low e 6) ::
        utf8LossyChars rest := by
  rw [utf8LossyChars.eq_def]
  simp only [hb, hc, hd, he, if_true]

theorem utf8LossyChars_cut_one
    (hb : utf8CharWidth b = 2 ∨ utf8CharWidth b = 3 ∨ utf8CharWidth b = 4) :
    utf8LossyChars [b] = ['\uFFFD'] := by
  rw [utf8LossyChars.eq_def]
  rcases hb with hb | hb | hb <;> simp only [hb, utf8LossyChars]

theorem utf8LossyChars_cut_two (hb : utf8CharWidth b = 3 ∨ utf8CharWidth b = 4)
    (hc : isSecondByte b c = true) : utf8LossyChars [b, c] = ['\uFFFD'] := by
  rw [utf8LossyChars.eq_def]
  rcases hb with hb | hb <;> simp only [hb, hc, if_true]

theorem utf8LossyChars_cut_three (hb : utf8CharWidth b = 4)
    (hc : isSecondByte b c = true) (hd : isContinuation d = true) :
    utf8LossyChars [b, c, d] = ['\uFFFD'] := by
  rw [utf8LossyChars.eq_def]
  simp only [hb, hc, hd, if_true]

end Sequences

section Bytes

variable {n : ℕ}

theorem utf8CharWidth_ofNat (hn : n < 256) :
    utf8CharWidth (.ofNat n) =
      if n < 0x80 then 1
      else if 0xC2 ≤ n ∧ n ≤ 0xDF then 2
      else if 0xE0 ≤ n ∧ n ≤ 0xEF then 3
      else if 0xF0 ≤ n ∧ n ≤ 0xF4 then 4
      else 0 := by
  simp [utf8CharWidth, UInt8.lt_iff_toNat_lt, UInt8.le_iff_toNat_le,
    Nat.mod_eq_of_lt hn]

theorem isContinuation_ofNat (hn : n < 64) :
    isContinuation (.ofNat (n + 0x80)) = true := by
  have hlt : n + 0x80 < 256 := by omega
  simp [isContinuation, UInt8.le_iff_toNat_le, Nat.mod_eq_of_lt hlt]
  omega

theorem ofNat_eq_iff {m : ℕ} (hn : n < 256) (hm : m < 256) :
    UInt8.ofNat n = .ofNat m ↔ n = m := by
  rw [← UInt8.toNat_inj, UInt8.toNat_ofNat', UInt8.toNat_ofNat', Nat.mod_eq_of_lt hn,
    Nat.mod_eq_of_lt hm]

theorem isSecondByte_ofNat {m : ℕ} (hm : m < 256) (hn : n < 64)
    (he0 : m = 0xE0 → 32 ≤ n) (hed : m = 0xED → n < 32) (hf0 : m = 0xF0 → 16 ≤ n)
    (hf4 : m = 0xF4 → n < 16) :
    isSecondByte (.ofNat m) (.ofNat (n + 0x80)) = true := by
  have hlt : n + 0x80 < 256 := by omega
  have h1 : UInt8.ofNat m = 0xE0 ↔ m = 0xE0 := ofNat_eq_iff (m := 0xE0) hm (by decide)
  have h2 : UInt8.ofNat m = 0xED ↔ m = 0xED := ofNat_eq_iff (m := 0xED) hm (by decide)
  have h3 : UInt8.ofNat m = 0xF0 ↔ m = 0xF0 := ofNat_eq_iff (m := 0xF0) hm (by decide)
  have h4 : UInt8.ofNat m = 0xF4 ↔ m = 0xF4 := ofNat_eq_iff (m := 0xF4) hm (by decide)
  simp only [isSecondByte, isContinuation_ofNat hn, UInt8.le_iff_toNat_le, h1, h2,
    h3, h4, UInt8.toNat_ofNat', UInt8.toNat_ofNat, Nat.mod_eq_of_lt hlt]
  split_ifs <;> simp <;> omega

theorem low_ofNat (hn : n < 256) (bits : ℕ) : low (.ofNat n) bits = n % 2 ^ bits := by
  simp [low, Nat.mod_eq_of_lt hn]

end Bytes

/-! ## A whole character -/

/-- The sequences that are decoded to one character. -/
inductive Encodes (c : Char) : List UInt8 → Prop
  | one (b : UInt8) (hb : utf8CharWidth b = 1) (hc : Char.ofNat b.toNat = c) :
      Encodes c [b]
  | two (b₁ b₂ : UInt8) (h₁ : utf8CharWidth b₁ = 2) (h₂ : isContinuation b₂ = true)
      (hc : Char.ofNat (low b₁ 5 * 64 + low b₂ 6) = c) : Encodes c [b₁, b₂]
  | three (b₁ b₂ b₃ : UInt8) (h₁ : utf8CharWidth b₁ = 3)
      (h₂ : isSecondByte b₁ b₂ = true) (h₃ : isContinuation b₃ = true)
      (hc : Char.ofNat (low b₁ 4 * 4096 + low b₂ 6 * 64 + low b₃ 6) = c) :
      Encodes c [b₁, b₂, b₃]
  | four (b₁ b₂ b₃ b₄ : UInt8) (h₁ : utf8CharWidth b₁ = 4)
      (h₂ : isSecondByte b₁ b₂ = true) (h₃ : isContinuation b₃ = true)
      (h₄ : isContinuation b₄ = true)
      (hc : Char.ofNat (low b₁ 3 * 262144 + low b₂ 6 * 4096 + low b₃ 6 * 64 +
        low b₄ 6) = c) : Encodes c [b₁, b₂, b₃, b₄]

section Characters

variable {c : Char} {bs p rest : List UInt8}

theorem encodes_utf8EncodeChar (c : Char) : Encodes c (String.utf8EncodeChar c) := by
  have hvalid : c.val.toNat < 0xD800 ∨
      (0xDFFF < c.val.toNat ∧ c.val.toNat < 0x110000) := c.valid
  have hofNat : ∀ {n}, n = c.val.toNat → Char.ofNat n = c := by
    rintro _ rfl
    exact Char.ofNat_toNat c
  unfold String.utf8EncodeChar
  generalize c.val.toNat = v at hvalid hofNat ⊢
  change Encodes c (ite (v ≤ 0x7F) _ (ite (v ≤ 0x7FF) _ (ite (v ≤ 0xFFFF) _ _)))
  split_ifs with h1 h2 h3
  · refine .one _ ?_ (hofNat ?_)
    · rw [utf8CharWidth_ofNat (by omega), if_pos (by omega)]
    · exact Nat.mod_eq_of_lt (by omega)
  · refine .two _ _ ?_ (isContinuation_ofNat (by omega)) (hofNat ?_)
    · rw [utf8CharWidth_ofNat (by omega), if_neg (by omega), if_pos (by omega)]
    · rw [low_ofNat (by omega), low_ofNat (by omega)]
      omega
  · refine .three _ _ _ ?_ (isSecondByte_ofNat (by omega) (by omega) (by omega)
      (by omega) (by omega) (by omega)) (isContinuation_ofNat (by omega)) (hofNat ?_)
    · rw [utf8CharWidth_ofNat (by omega), if_neg (by omega), if_neg (by omega),
        if_pos (by omega)]
    · rw [low_ofNat (by omega), low_ofNat (by omega), low_ofNat (by omega)]
      omega
  · refine .four _ _ _ _ ?_ (isSecondByte_ofNat (by omega) (by omega) (by omega)
      (by omega) (by omega) (by omega)) (isContinuation_ofNat (by omega))
      (isContinuation_ofNat (by omega)) (hofNat ?_)
    · rw [utf8CharWidth_ofNat (by omega), if_neg (by omega), if_neg (by omega),
        if_neg (by omega), if_pos (by omega)]
    · rw [low_ofNat (by omega), low_ofNat (by omega), low_ofNat (by omega),
        low_ofNat (by omega)]
      omega

theorem Encodes.decode (h : Encodes c bs) :
    utf8LossyChars (bs ++ rest) = c :: utf8LossyChars rest := by
  cases h with
  | one b hb hc =>
      subst hc
      exact utf8LossyChars_one hb
  | two b₁ b₂ h₁ h₂ hc =>
      subst hc
      exact utf8LossyChars_two h₁ h₂
  | three b₁ b₂ b₃ h₁ h₂ h₃ hc =>
      subst hc
      exact utf8LossyChars_three h₁ h₂ h₃
  | four b₁ b₂ b₃ b₄ h₁ h₂ h₃ h₄ hc =>
      subst hc
      exact utf8LossyChars_four h₁ h₂ h₃ h₄

/-- A sequence that is cut off is replaced by one character. -/
theorem Encodes.cut (h : Encodes c bs) (n : ℕ) (hpos : 0 < n) (hcut : n < bs.length) :
    utf8LossyChars (bs.take n) = ['\uFFFD'] := by
  cases h with
  | one => simp at hcut; omega
  | two b₁ b₂ h₁ =>
      obtain rfl : n = 1 := by simp at hcut; omega
      exact utf8LossyChars_cut_one (Or.inl h₁)
  | three b₁ b₂ b₃ h₁ h₂ =>
      obtain rfl | rfl : n = 1 ∨ n = 2 := by simp at hcut; omega
      · exact utf8LossyChars_cut_one (Or.inr (Or.inl h₁))
      · exact utf8LossyChars_cut_two (Or.inl h₁) h₂
  | four b₁ b₂ b₃ b₄ h₁ h₂ h₃ =>
      obtain rfl | rfl | rfl : n = 1 ∨ n = 2 ∨ n = 3 := by simp at hcut; omega
      · exact utf8LossyChars_cut_one (Or.inr (Or.inr h₁))
      · exact utf8LossyChars_cut_two (Or.inr h₁) h₂
      · exact utf8LossyChars_cut_three h₁ h₂ h₃

end Characters

/-! ## A whole text -/

section Texts

variable {reason : String} {p rest : List UInt8}

theorem utf8LossyChars_encoded (cs : List Char) :
    utf8LossyChars (cs.flatMap String.utf8EncodeChar ++ rest) =
      cs ++ utf8LossyChars rest := by
  induction cs with
  | nil => rfl
  | cons c cs ih =>
      rw [List.flatMap_cons, List.append_assoc, (encodes_utf8EncodeChar c).decode, ih]
      rfl

theorem utf8LossyChars_flatMap (cs : List Char) :
    utf8LossyChars (cs.flatMap String.utf8EncodeChar) = cs := by
  have hdecoded : utf8LossyChars (cs.flatMap String.utf8EncodeChar ++ []) =
      cs ++ utf8LossyChars [] := utf8LossyChars_encoded cs
  simpa [utf8LossyChars] using hdecoded

/-- What can be left of a text of which only the first bytes have arrived: its
first characters, and a replacement character for the one that was cut. -/
def Remains (reason out : String) : Prop :=
  ∃ kept lost, reason.toList = kept ++ lost ∧
    (out = String.ofList kept ∨
      (lost ≠ [] ∧ out = String.ofList (kept ++ ['\uFFFD'])))

theorem remains_of_isPrefix (h : p <+: asBytes reason) :
    Remains reason (fromUtf8Lossy p) := by
  rw [asBytes_eq] at h
  obtain ⟨kept, lost, hsplit, hp⟩ := exists_blocks_of_isPrefix h
  refine ⟨kept, lost, hsplit, ?_⟩
  rcases hp with rfl | ⟨c, n, hc, hpos, hcut, rfl⟩
  · left
    rw [fromUtf8Lossy, utf8LossyChars_flatMap]
  · refine Or.inr ⟨?_, ?_⟩
    · rintro rfl
      cases hc
    · rw [fromUtf8Lossy, utf8LossyChars_encoded,
        (encodes_utf8EncodeChar c).cut n hpos hcut]

end Texts

end WebTransport
