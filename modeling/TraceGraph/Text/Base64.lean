import TraceGraph.Bytes

/-!
# Base64

Three bytes become four letters; a rest of one or two bytes is filled up with `=`. Only the
form that `encode` writes is read, so a missing filler, a misplaced one or a stray bit
behind the last byte is refused.

The main result, `decode?_eq_some_iff`, says that each byte sequence has exactly one text
and is read from no other. Its two directions are proved apart.

* `decode?_encode`: what is written is read back, by induction on the recursion of `encode`,
  group by group.
* `eq_encode_of_decode?`: what is read is the written form of the answer, by induction on
  the recursion of `decode?`. For each of the three ways in which a group can end a lemma
  says that writing its bytes gives its letters back (`encode_of_oneByte?`,
  `encode_of_twoBytes?`, `encode_of_threeBytes?`); the bits that no byte takes are zero
  because the reader asks for it.

Letters are small numbers, so what is to be known of a single letter is decided by going
through all of them. `encode_plain` is what a record needs: no letter is a delimiter.
-/

namespace TraceGraph.Base64

/-- The letter for six bits. -/
def letter (n : Nat) : UInt8 :=
  if n < 26 then UInt8.ofNat (65 + n)
  else if n < 52 then UInt8.ofNat (71 + n)
  else if n < 62 then UInt8.ofNat (n - 4)
  else if n = 62 then 43 else 47

/-- The six bits that a letter stands for. -/
def sextet? (b : UInt8) : Option Nat :=
  if 65 ≤ b ∧ b ≤ 90 then some (b.toNat - 65)
  else if 97 ≤ b ∧ b ≤ 122 then some (b.toNat - 71)
  else if 48 ≤ b ∧ b ≤ 57 then some (b.toNat + 4)
  else if b = 43 then some 62
  else if b = 47 then some 63
  else none

/-- Fills up the last group of letters. -/
def filler : UInt8 := 61

/-- The text of a byte sequence. -/
def encode : Bytes → Bytes
  | [] => []
  | [a] => [letter (a.toNat / 4), letter (a.toNat % 4 * 16), filler, filler]
  | [a, b] =>
    [letter (a.toNat / 4), letter (a.toNat % 4 * 16 + b.toNat / 16), letter (b.toNat % 16 * 4),
      filler]
  | a :: b :: c :: rest =>
    letter (a.toNat / 4) :: letter (a.toNat % 4 * 16 + b.toNat / 16) ::
      letter (b.toNat % 16 * 4 + c.toNat / 64) :: letter (c.toNat % 64) :: encode rest

/-- Two letters before two fillers: one byte, and no bit behind it. -/
def oneByte? (w x : UInt8) : Option Bytes :=
  match sextet? w, sextet? x with
  | some i, some j => if j % 16 = 0 then some [UInt8.ofNat (i * 4 + j / 16)] else none
  | _, _ => none

/-- Three letters before one filler: two bytes, and no bit behind them. -/
def twoBytes? (w x y : UInt8) : Option Bytes :=
  match sextet? w, sextet? x, sextet? y with
  | some i, some j, some k =>
    if k % 4 = 0 then
      some [UInt8.ofNat (i * 4 + j / 16), UInt8.ofNat (j % 16 * 16 + k / 4)]
    else none
  | _, _, _ => none

/-- Four letters: three bytes. -/
def threeBytes? (w x y z : UInt8) : Option Bytes :=
  match sextet? w, sextet? x, sextet? y, sextet? z with
  | some i, some j, some k, some l =>
    some [UInt8.ofNat (i * 4 + j / 16), UInt8.ofNat (j % 16 * 16 + k / 4),
      UInt8.ofNat (k % 4 * 64 + l)]
  | _, _, _, _ => none

/-- The last group of four letters, which may be filled up. -/
def lastGroup? (w x y z : UInt8) : Option Bytes :=
  if z = filler then
    if y = filler then oneByte? w x else twoBytes? w x y
  else threeBytes? w x y z

/-- Reads exactly the texts that `encode` writes. -/
def decode? : Bytes → Option Bytes
  | [] => some []
  | [w, x, y, z] => lastGroup? w x y z
  | w :: x :: y :: z :: rest =>
    match threeBytes? w x y z, decode? rest with
    | some head, some tail => some (head ++ tail)
    | _, _ => none
  | _ => none

/-! ## Letters -/

/-- A letter stands for its bits. -/
theorem sextet?_letter {n : Nat} (h : n < 64) : sextet? (letter n) = some n := by
  have : ∀ n < 64, sextet? (letter n) = some n := by decide
  exact this n h

/-- No letter is the filler. -/
theorem letter_ne_filler {n : Nat} (h : n < 64) : letter n ≠ filler := by
  have : ∀ n < 64, letter n ≠ filler := by decide
  exact this n h

/-- What stands for bits is their letter. -/
theorem eq_letter_of_sextet? {b : UInt8} {n : Nat} (h : sextet? b = some n) :
    n < 64 ∧ b = letter n := by
  have : ∀ k < 256, ∀ n, sextet? (UInt8.ofNat k) = some n →
      n < 64 ∧ UInt8.ofNat k = letter n := by
    have : ∀ k < 256, (sextet? (UInt8.ofNat k)).all
        (fun n => decide (n < 64 ∧ UInt8.ofNat k = letter n)) = true := by decide +kernel
    intro k hk n hn
    have := this k hk
    rw [hn] at this
    exact of_decide_eq_true this
  have hb := this b.toNat b.toNat_lt n
  rw [UInt8.ofNat_toNat] at hb
  exact hb h

/-! ## Reading undoes writing -/

theorem ofNat_eq {n : Nat} {b : UInt8} (h : n = b.toNat) : UInt8.ofNat n = b := by
  rw [h, UInt8.ofNat_toNat]

/-- What is written is read back. -/
theorem decode?_encode (bytes : Bytes) : decode? (encode bytes) = some bytes := by
  induction bytes using encode.induct with
  | case1 => rfl
  | case2 a =>
    have ha := a.toNat_lt
    simp only [encode, decode?, lastGroup?, oneByte?, if_pos,
      sextet?_letter (show a.toNat / 4 < 64 by omega),
      sextet?_letter (show a.toNat % 4 * 16 < 64 by omega)]
    rw [if_pos (by omega), ofNat_eq (b := a) (by omega)]
  | case3 a b =>
    have ha := a.toNat_lt
    have hb := b.toNat_lt
    have hk : b.toNat % 16 * 4 < 64 := by omega
    simp only [encode, decode?, lastGroup?, twoBytes?, if_pos, if_neg (letter_ne_filler hk),
      sextet?_letter (show a.toNat / 4 < 64 by omega),
      sextet?_letter (show a.toNat % 4 * 16 + b.toNat / 16 < 64 by omega), sextet?_letter hk]
    rw [if_pos (by omega), ofNat_eq (b := a) (by omega), ofNat_eq (b := b) (by omega)]
  | case4 a b c rest ih =>
    have ha := a.toNat_lt
    have hb := b.toNat_lt
    have hc := c.toNat_lt
    have hl : c.toNat % 64 < 64 := by omega
    have group : threeBytes? (letter (a.toNat / 4)) (letter (a.toNat % 4 * 16 + b.toNat / 16))
        (letter (b.toNat % 16 * 4 + c.toNat / 64)) (letter (c.toNat % 64)) = some [a, b, c] := by
      simp only [threeBytes?, sextet?_letter (show a.toNat / 4 < 64 by omega),
        sextet?_letter (show a.toNat % 4 * 16 + b.toNat / 16 < 64 by omega),
        sextet?_letter (show b.toNat % 16 * 4 + c.toNat / 64 < 64 by omega), sextet?_letter hl]
      rw [ofNat_eq (b := a) (by omega), ofNat_eq (b := b) (by omega), ofNat_eq (b := c) (by omega)]
    -- the reader looks whether this group is the last one
    cases h : encode rest with
    | nil =>
      have : rest = [] := by
        rw [h] at ih
        simpa [decode?] using ih.symm
      simp only [encode, decode?, lastGroup?, if_neg (letter_ne_filler hl), group, this]
    | cons d ds =>
      rw [h] at ih
      rw [encode, h, decode?]
      · simp [group, ih]
      · simp

theorem toNat_ofNat_of_lt {n : Nat} (h : n < 256) : (UInt8.ofNat n).toNat = n := by
  rw [UInt8.toNat_ofNat', Nat.mod_eq_of_lt h]

/-- Two letters for one byte are what is written for it. -/
theorem encode_of_oneByte? {w x : UInt8} {bytes : Bytes} (h : oneByte? w x = some bytes) :
    encode bytes = [w, x, filler, filler] := by
  simp only [oneByte?] at h
  split at h
  next i j hi hj =>
    obtain ⟨hi, rfl⟩ := eq_letter_of_sextet? hi
    obtain ⟨hj, rfl⟩ := eq_letter_of_sextet? hj
    split at h
    next hbits =>
      cases h
      rw [encode, toNat_ofNat_of_lt (by omega), show (i * 4 + j / 16) / 4 = i by omega,
        show (i * 4 + j / 16) % 4 * 16 = j by omega]
    next => cases h
  next => cases h

/-- Three letters for two bytes are what is written for them. -/
theorem encode_of_twoBytes? {w x y : UInt8} {bytes : Bytes} (h : twoBytes? w x y = some bytes) :
    encode bytes = [w, x, y, filler] := by
  simp only [twoBytes?] at h
  split at h
  next i j k hi hj hk =>
    obtain ⟨hi, rfl⟩ := eq_letter_of_sextet? hi
    obtain ⟨hj, rfl⟩ := eq_letter_of_sextet? hj
    obtain ⟨hk, rfl⟩ := eq_letter_of_sextet? hk
    split at h
    next hbits =>
      cases h
      rw [encode, toNat_ofNat_of_lt (by omega), toNat_ofNat_of_lt (by omega),
        show (i * 4 + j / 16) / 4 = i by omega,
        show (i * 4 + j / 16) % 4 * 16 + (j % 16 * 16 + k / 4) / 16 = j by omega,
        show (j % 16 * 16 + k / 4) % 16 * 4 = k by omega]
    next => cases h
  next => cases h

/-- A full group gives three bytes, and writing those gives the group back, whatever follows. -/
theorem encode_of_threeBytes? {w x y z : UInt8} {bytes : Bytes}
    (h : threeBytes? w x y z = some bytes) (rest : Bytes) :
    encode (bytes ++ rest) = w :: x :: y :: z :: encode rest := by
  simp only [threeBytes?] at h
  split at h
  next i j k l hi hj hk hl =>
    obtain ⟨hi, rfl⟩ := eq_letter_of_sextet? hi
    obtain ⟨hj, rfl⟩ := eq_letter_of_sextet? hj
    obtain ⟨hk, rfl⟩ := eq_letter_of_sextet? hk
    obtain ⟨hl, rfl⟩ := eq_letter_of_sextet? hl
    cases h
    simp only [List.cons_append, List.nil_append]
    rw [encode, toNat_ofNat_of_lt (by omega), toNat_ofNat_of_lt (by omega),
      toNat_ofNat_of_lt (by omega), show (i * 4 + j / 16) / 4 = i by omega,
      show (i * 4 + j / 16) % 4 * 16 + (j % 16 * 16 + k / 4) / 16 = j by omega,
      show (j % 16 * 16 + k / 4) % 16 * 4 + (k % 4 * 64 + l) / 64 = k by omega,
      show (k % 4 * 64 + l) % 64 = l by omega]
  next => cases h

/-- Whatever is read is the written form of the answer. -/
theorem eq_encode_of_decode? {text bytes : Bytes} (h : decode? text = some bytes) :
    text = encode bytes := by
  induction text using decode?.induct generalizing bytes with
  | case1 => simp_all [decode?, encode]
  | case2 w x y z =>
    simp only [decode?, lastGroup?] at h
    split at h
    next hz =>
      split at h
      next hy => rw [encode_of_oneByte? h, hz, hy]
      next => rw [encode_of_twoBytes? h, hz]
    next =>
      have := encode_of_threeBytes? h []
      rw [List.append_nil] at this
      rw [this, encode]
  | case3 w x y z rest hrest head tail htail hhead ih =>
    rw [decode?, hhead, htail] at h
    · cases h
      rw [encode_of_threeBytes? hhead, ← ih htail]
    · exact hrest
  | case4 w x y z rest hrest hnone ih =>
    rw [decode?] at h
    · split at h
      next head tail hhead htail => exact absurd htail (hnone head tail hhead)
      next => cases h
    · exact hrest
  | case5 text h₁ h₂ h₃ =>
    rw [decode?] at h
    · cases h
    all_goals assumption

/-- Each byte sequence has exactly one text. -/
theorem decode?_eq_some_iff {text bytes : Bytes} :
    decode? text = some bytes ↔ text = encode bytes :=
  ⟨eq_encode_of_decode?, fun h => h ▸ decode?_encode bytes⟩

/-- A letter or a filler, never a delimiter of a record. -/
theorem encode_plain (bytes : Bytes) : ∀ b ∈ encode bytes, b ≠ 44 ∧ b ≠ 123 ∧ b ≠ 125 := by
  have plain : ∀ n < 64, letter n ≠ 44 ∧ letter n ≠ 123 ∧ letter n ≠ 125 := by decide
  have plainFiller : filler ≠ 44 ∧ filler ≠ 123 ∧ filler ≠ 125 := by decide
  induction bytes using encode.induct with
  | case1 => simp [encode]
  | case2 a =>
    have ha := a.toNat_lt
    simp only [encode, List.mem_cons, List.not_mem_nil, or_false]
    rintro b (rfl | rfl | rfl | rfl)
    · exact plain _ (by omega)
    · exact plain _ (by omega)
    · exact plainFiller
    · exact plainFiller
  | case3 a b =>
    have ha := a.toNat_lt
    have hb := b.toNat_lt
    simp only [encode, List.mem_cons, List.not_mem_nil, or_false]
    rintro b (rfl | rfl | rfl | rfl)
    · exact plain _ (by omega)
    · exact plain _ (by omega)
    · exact plain _ (by omega)
    · exact plainFiller
  | case4 a b c rest ih =>
    have ha := a.toNat_lt
    have hb := b.toNat_lt
    have hc := c.toNat_lt
    simp only [encode, List.mem_cons]
    rintro b (rfl | rfl | rfl | rfl | h)
    · exact plain _ (by omega)
    · exact plain _ (by omega)
    · exact plain _ (by omega)
    · exact plain _ (by omega)
    · exact ih b h

end TraceGraph.Base64
