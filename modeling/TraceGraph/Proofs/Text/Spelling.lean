import Mathlib.Data.List.Induction
import TraceGraph.FieldFormat

/-!
# Which tokens spell which values

The readers of numbers, flags and payloads are functions on bytes: they strip a sign, test
characters and compute a value. What they accept can be said without them. A numeral is
built digit by digit, a signed number is a numeral behind a sign or alone, a payload is
built group by group. Such a description tells which texts there are for a value, and the
statements about records rest on it.

The descriptions are inductive, `Decimal.Numeral`, `Decimal.Unsigned`, `Decimal.Signed` and
`Base64.Canonical`. For each the module shows that the reader accepts its texts and no
others:

* `natural?_eq_some_iff`, `unsigned?_eq_some_iff` and `signed?_eq_some_iff` for numbers,
* `Base64.decode?_eq_some_iff_canonical` for payloads,
* `read?_u32_eq_some_iff` and its siblings for the formats of fields, which ask in addition
  that the number is within the bounds of its type.

A numeral may have leading zeros and a plus, so a number has many spellings. A payload has
one: the unused bits of its last group have to be zero, and then the text is the one that
the printer writes (`Canonical.eq_encode`). So for payloads it suffices to go through the
printer.
-/

namespace TraceGraph

namespace Decimal

/-- One or more ASCII digits and the number that they stand for. -/
inductive Numeral : Bytes → Nat → Prop
  | single {d : Nat} (h : d < 10) : Numeral [UInt8.ofNat (48 + d)] d
  | snoc {text : Bytes} {n d : Nat} (front : Numeral text n) (h : d < 10) :
      Numeral (text ++ [UInt8.ofNat (48 + d)]) (10 * n + d)

/-- A numeral, behind a plus or alone. -/
inductive Unsigned : Bytes → Nat → Prop
  | plain {text : Bytes} {n : Nat} (h : Numeral text n) : Unsigned text n
  | plus {text : Bytes} {n : Nat} (h : Numeral text n) : Unsigned (43 :: text) n

/-- A numeral, behind a plus or a minus or alone. -/
inductive Signed : Bytes → Int → Prop
  | plain {text : Bytes} {n : Nat} (h : Numeral text n) : Signed text n
  | plus {text : Bytes} {n : Nat} (h : Numeral text n) : Signed (43 :: text) n
  | minus {text : Bytes} {n : Nat} (h : Numeral text n) : Signed (45 :: text) (-n)

/-! ## Numerals -/

/-- The digits are the ten bytes from 48 on. -/
theorem exists_eq_ofNat_of_isDigit {b : UInt8} (h : isDigit b = true) :
    ∃ d < 10, b = UInt8.ofNat (48 + d) := by
  unfold isDigit at h
  rw [Bool.and_eq_true, decide_eq_true_eq, decide_eq_true_eq, UInt8.le_iff_toNat_le,
    UInt8.le_iff_toNat_le] at h
  obtain ⟨hlow, hhigh⟩ := h
  have hlow : 48 ≤ b.toNat := hlow
  have hhigh : b.toNat ≤ 57 := hhigh
  refine ⟨b.toNat - 48, by omega, ?_⟩
  rw [show 48 + (b.toNat - 48) = b.toNat by omega, UInt8.ofNat_toNat]

theorem toNat_digit {d : Nat} (h : d < 10) : (UInt8.ofNat (48 + d)).toNat - 48 = d := by
  rw [UInt8.toNat_ofNat', Nat.mod_eq_of_lt (by omega)]
  omega

/-- A numeral consists of digits. -/
theorem Numeral.isDigit_of_mem {text : Bytes} {n : Nat} (h : Numeral text n) :
    ∀ b ∈ text, isDigit b = true := by
  induction h with
  | single hd =>
    intro b hb
    rw [List.mem_singleton.1 hb]
    exact isDigit_ofNat hd
  | snoc front hd ih =>
    intro b hb
    rcases List.mem_append.1 hb with hb | hb
    · exact ih b hb
    · rw [List.mem_singleton.1 hb]
      exact isDigit_ofNat hd

theorem Numeral.ne_nil {text : Bytes} {n : Nat} (h : Numeral text n) : text ≠ [] := by
  cases h with
  | single => exact List.cons_ne_nil _ _
  | snoc => exact List.append_ne_nil_of_right_ne_nil _ (List.cons_ne_nil _ _)

/-- A numeral stands for its value. -/
theorem Numeral.value_eq {text : Bytes} {n : Nat} (h : Numeral text n) : value text = n := by
  induction h with
  | single hd =>
    show 10 * 0 + _ = _
    rw [toNat_digit hd]
    omega
  | snoc front hd ih => rw [value_append_singleton, ih, toNat_digit hd]

/-- Digits always form a numeral. -/
theorem numeral_value {text : Bytes} (hne : text ≠ []) (h : ∀ b ∈ text, isDigit b = true) :
    Numeral text (value text) := by
  -- from the end, where a numeral grows
  induction text using List.reverseRecOn with
  | nil => exact absurd rfl hne
  | append_singleton front b ih =>
    obtain ⟨d, hd, rfl⟩ := exists_eq_ofNat_of_isDigit (h b (by simp))
    rw [value_append_singleton, toNat_digit hd]
    by_cases hfront : front = []
    · subst hfront
      rw [show 10 * value [] + d = d from by simp [value]]
      exact .single hd
    · exact .snoc (ih hfront fun b hb => h b (List.mem_append_left _ hb)) hd

/-- The digits are read as the number that they build, and nothing else is read. -/
theorem natural?_eq_some_iff {text : Bytes} {n : Nat} :
    natural? text = some n ↔ Numeral text n := by
  unfold natural?
  refine ⟨?_, ?_⟩
  · intro h
    split at h
    next hdigits =>
      rw [← Option.some.inj h]
      exact numeral_value hdigits.1 (List.all_eq_true.1 hdigits.2)
    next => cases h
  · intro h
    rw [if_pos ⟨h.ne_nil, List.all_eq_true.2 h.isDigit_of_mem⟩, h.value_eq]

/-- A numeral starts with a digit, so no sign is taken for a part of it. -/
theorem Numeral.exists_eq_cons {text : Bytes} {n : Nat} (h : Numeral text n) :
    ∃ b bs, text = b :: bs ∧ b ≠ 43 ∧ b ≠ 45 := by
  cases hb : text with
  | nil => exact absurd hb h.ne_nil
  | cons b bs =>
    have hdigit := h.isDigit_of_mem b (hb ▸ List.mem_cons_self ..)
    refine ⟨b, bs, rfl, ?_, ?_⟩
    · intro hsign
      subst hsign
      exact absurd hdigit (by decide)
    · intro hsign
      subst hsign
      exact absurd hdigit (by decide)

/-- One plus is allowed in front of an unsigned number. -/
theorem unsigned?_eq_some_iff {text : Bytes} {n : Nat} :
    unsigned? text = some n ↔ Unsigned text n := by
  refine ⟨?_, ?_⟩
  · intro h
    unfold unsigned? at h
    split at h
    next => exact .plus (natural?_eq_some_iff.1 h)
    next => exact .plain (natural?_eq_some_iff.1 h)
  · intro h
    cases h with
    | plus h => exact natural?_eq_some_iff.2 h
    | plain h =>
      obtain ⟨b, bs, rfl, hplus, -⟩ := h.exists_eq_cons
      unfold unsigned?
      split
      next heq => exact absurd (List.cons.inj heq).1 hplus
      next => exact natural?_eq_some_iff.2 h

/-- One plus or one minus is allowed in front of a signed number. -/
theorem signed?_eq_some_iff {text : Bytes} {n : Int} :
    signed? text = some n ↔ Signed text n := by
  refine ⟨?_, ?_⟩
  · intro h
    unfold signed? at h
    split at h
    all_goals
      obtain ⟨k, hk, rfl⟩ := Option.map_eq_some_iff.1 h
      have hk := natural?_eq_some_iff.1 hk
    · exact .plus hk
    · exact .minus hk
    · exact .plain hk
  · intro h
    cases h with
    | plus h =>
      show (natural? _).map Int.ofNat = _
      rw [natural?_eq_some_iff.2 h]
      rfl
    | minus h =>
      show (natural? _).map (fun n => -Int.ofNat n) = _
      rw [natural?_eq_some_iff.2 h]
      rfl
    | plain h =>
      obtain ⟨b, bs, rfl, hplus, hminus⟩ := h.exists_eq_cons
      unfold signed?
      split
      next heq => exact absurd (List.cons.inj heq).1 hplus
      next heq => exact absurd (List.cons.inj heq).1 hminus
      next =>
        rw [natural?_eq_some_iff.2 h]
        rfl

end Decimal

/-! ## Payloads -/

namespace Base64

/-- Groups of four letters, the last of which may be filled up. The bits of a filled group that
belong to no byte are zero. -/
inductive Canonical : Bytes → Bytes → Prop
  | nil : Canonical [] []
  | one {i j : Nat} (hi : i < 64) (hj : j < 64) (hbits : j % 16 = 0) :
      Canonical [letter i, letter j, filler, filler] [UInt8.ofNat (i * 4 + j / 16)]
  | two {i j k : Nat} (hi : i < 64) (hj : j < 64) (hk : k < 64) (hbits : k % 4 = 0) :
      Canonical [letter i, letter j, letter k, filler]
        [UInt8.ofNat (i * 4 + j / 16), UInt8.ofNat (j % 16 * 16 + k / 4)]
  | three {i j k l : Nat} {text bytes : Bytes} (hi : i < 64) (hj : j < 64) (hk : k < 64)
      (hl : l < 64) (rest : Canonical text bytes) :
      Canonical (letter i :: letter j :: letter k :: letter l :: text)
        (UInt8.ofNat (i * 4 + j / 16) :: UInt8.ofNat (j % 16 * 16 + k / 4) ::
          UInt8.ofNat (k % 4 * 64 + l) :: bytes)

/-- A canonical text is the printed one. -/
theorem Canonical.eq_encode {text bytes : Bytes} (h : Canonical text bytes) :
    text = encode bytes := by
  induction h with
  | nil => rfl
  | one hi hj hbits =>
    refine (encode_of_oneByte? ?_).symm
    rw [oneByte?, sextet?_letter hi, sextet?_letter hj]
    exact if_pos hbits
  | two hi hj hk hbits =>
    refine (encode_of_twoBytes? ?_).symm
    rw [twoBytes?, sextet?_letter hi, sextet?_letter hj, sextet?_letter hk]
    exact if_pos hbits
  | @three i j k l text bytes hi hj hk hl rest ih =>
    have group : threeBytes? (letter i) (letter j) (letter k) (letter l) =
        some [UInt8.ofNat (i * 4 + j / 16), UInt8.ofNat (j % 16 * 16 + k / 4),
          UInt8.ofNat (k % 4 * 64 + l)] := by
      rw [threeBytes?, sextet?_letter hi, sextet?_letter hj, sextet?_letter hk, sextet?_letter hl]
    rw [ih]
    exact (encode_of_threeBytes? group bytes).symm

/-- What is printed is canonical. -/
theorem canonical_encode (bytes : Bytes) : Canonical (encode bytes) bytes := by
  -- by groups of three bytes; the indices of the four letters are read off from the bytes
  induction bytes using encode.induct with
  | case1 => exact .nil
  | case2 a =>
    have ha := a.toNat_lt
    have h := Canonical.one (i := a.toNat / 4) (j := a.toNat % 4 * 16) (by omega) (by omega)
      (by omega)
    rwa [ofNat_eq (b := a) (by omega)] at h
  | case3 a b =>
    have ha := a.toNat_lt
    have hb := b.toNat_lt
    have h := Canonical.two (i := a.toNat / 4) (j := a.toNat % 4 * 16 + b.toNat / 16)
      (k := b.toNat % 16 * 4) (by omega) (by omega) (by omega) (by omega)
    rwa [ofNat_eq (b := a) (by omega), ofNat_eq (b := b) (by omega)] at h
  | case4 a b c rest ih =>
    have ha := a.toNat_lt
    have hb := b.toNat_lt
    have hc := c.toNat_lt
    have h := Canonical.three (i := a.toNat / 4) (j := a.toNat % 4 * 16 + b.toNat / 16)
      (k := b.toNat % 16 * 4 + c.toNat / 64) (l := c.toNat % 64) (by omega) (by omega) (by omega)
      (by omega) ih
    rwa [ofNat_eq (b := a) (by omega), ofNat_eq (b := b) (by omega),
      ofNat_eq (b := c) (by omega)] at h

/-- Exactly the canonical texts are read. -/
theorem decode?_eq_some_iff_canonical {text bytes : Bytes} :
    decode? text = some bytes ↔ Canonical text bytes := by
  rw [decode?_eq_some_iff]
  refine ⟨?_, ?_⟩
  · intro h
    subst h
    exact canonical_encode bytes
  · exact Canonical.eq_encode

end Base64

/-! ## Field formats -/

namespace FieldFormat

/-- A number is refused if it does not fit. -/
theorem unsignedBelow?_eq_some_iff {limit n : Nat} {text : Bytes} :
    unsignedBelow? limit text = some n ↔ Decimal.Unsigned text n ∧ n < limit := by
  unfold unsignedBelow?
  rw [Option.filter_eq_some_iff, Decimal.unsigned?_eq_some_iff, decide_eq_true_eq]

theorem read?_u32_eq_some_iff {text : Bytes} {n : UInt32} :
    u32.read? text = some n ↔ Decimal.Unsigned text n.toNat := by
  show (unsignedBelow? UInt32.size text).map UInt32.ofNat = some n ↔ _
  rw [Option.map_eq_some_iff]
  refine ⟨?_, ?_⟩
  · intro h
    obtain ⟨k, hk, rfl⟩ := h
    obtain ⟨hk, hlt⟩ := unsignedBelow?_eq_some_iff.1 hk
    rwa [UInt32.toNat_ofNat_of_lt' hlt]
  · intro h
    exact ⟨n.toNat, unsignedBelow?_eq_some_iff.2 ⟨h, n.toNat_lt_size⟩, UInt32.ofNat_toNat⟩

theorem read?_u64_eq_some_iff {text : Bytes} {n : UInt64} :
    u64.read? text = some n ↔ Decimal.Unsigned text n.toNat := by
  show (unsignedBelow? UInt64.size text).map UInt64.ofNat = some n ↔ _
  rw [Option.map_eq_some_iff]
  refine ⟨?_, ?_⟩
  · intro h
    obtain ⟨k, hk, rfl⟩ := h
    obtain ⟨hk, hlt⟩ := unsignedBelow?_eq_some_iff.1 hk
    rwa [UInt64.toNat_ofNat_of_lt' hlt]
  · intro h
    exact ⟨n.toNat, unsignedBelow?_eq_some_iff.2 ⟨h, n.toNat_lt_size⟩, UInt64.ofNat_toNat⟩

/-- A number is read as 32 bits with a sign if it fits into them, and no number wraps
around. -/
theorem read?_i32_eq_some_iff {text : Bytes} {n : Int32} :
    i32.read? text = some n ↔ Decimal.Signed text n.toInt := by
  show ((Decimal.signed? text).filter fun k =>
    Int32.minValue.toInt ≤ k ∧ k ≤ Int32.maxValue.toInt).map Int32.ofInt = some n ↔ _
  rw [Option.map_eq_some_iff]
  refine ⟨?_, ?_⟩
  · intro h
    obtain ⟨k, hk, rfl⟩ := h
    obtain ⟨hk, hrange⟩ := Option.filter_eq_some_iff.1 hk
    have hrange := of_decide_eq_true hrange
    rw [Int32.toInt_ofInt_of_le hrange.1 (Int.lt_add_one_of_le hrange.2)]
    exact Decimal.signed?_eq_some_iff.1 hk
  · intro h
    have hrange : Int32.minValue.toInt ≤ n.toInt ∧ n.toInt ≤ Int32.maxValue.toInt :=
      ⟨n.le_toInt, Int.le_of_lt_add_one n.toInt_lt⟩
    exact ⟨n.toInt, Option.filter_eq_some_iff.2
      ⟨Decimal.signed?_eq_some_iff.2 h, decide_eq_true hrange⟩, Int32.ofInt_toInt n⟩

/-- A flag is one digit, and a sign or a zero in front of it is refused. -/
theorem read?_flag_eq_some_iff {text : Bytes} {b : Bool} :
    flag.read? text = some b ↔ text = if b then [49] else [48] := by
  show (if text = [49] then some true else if text = [48] then some false else none) = some b ↔ _
  by_cases hone : text = [49]
  · subst hone
    cases b <;> simp
  · by_cases hzero : text = [48]
    · subst hzero
      cases b <;> simp
    · cases b <;> simp [hone, hzero]

theorem read?_payload_eq_some_iff {text bytes : Bytes} :
    payload.read? text = some bytes ↔ Base64.Canonical text bytes :=
  Base64.decode?_eq_some_iff_canonical

end FieldFormat

end TraceGraph
