import FunctionMap.Text.Utf8

/-!
# UTF-8: decoding undoes encoding

The reader of `Text/Utf8` takes a byte at a time; the writer knows whole characters. They are tied
together by the bytes that complete a character of which the first byte is known:

* `Pending.Completes p bs v` -- the bytes `bs` complete the character at hand, and its number is `v`;
* `Pending.Faithful p` -- whatever completes the character at hand, the bytes are those of the
  character. It holds behind every first byte and is kept by every further one.

Main statement: a byte string decodes to a text exactly if it is the encoding of that text
(`decode_eq_ok_iff`).
-/

namespace FunctionMap
namespace Utf8

/-! ## 1. The bytes that complete a character -/

/-- The character at hand with one more of its bytes. -/
def Pending.next (p : Pending) (b : UInt8) : Pending :=
  ⟨p.seen ++ [b], p.value * 64 + b.toNat % 64, p.owed - 1, 0x80, 0xBF⟩

/-- The bytes that complete the character at hand, and the number of that character. -/
inductive Pending.Completes : Pending → Bytes → Nat → Prop where
  | last {p : Pending} {b : UInt8} (howed : p.owed = 1) (hb : p.low ≤ b ∧ b ≤ p.high) :
      Completes p [b] (p.value * 64 + b.toNat % 64)
  | more {p : Pending} {b : UInt8} {bs : Bytes} {v : Nat} (howed : p.owed ≠ 1)
      (hb : p.low ≤ b ∧ b ≤ p.high) (h : Completes (p.next b) bs v) : Completes p (b :: bs) v

/-- The bytes that complete a character are read as that character. -/
theorem read_of_completes {p : Pending} {bs : Bytes} {v : Nat} (h : p.Completes bs v)
    (rest : Bytes) : Reader.read (some p) (bs ++ rest)
      = ⟨p.seen ++ bs, some (Char.ofNat v)⟩ :: Reader.read none rest := by
  induction h with
  | last howed hb => simp [Reader.read, Reader.step, howed, hb]
  | @more p b bs v howed hb h ih =>
    have hstep : Reader.step (some p) b = ([], some (p.next b)) := by
      simp [Reader.step, howed, hb, Pending.next]
    rw [List.cons_append, Reader.read, hstep, ih]
    simp [Pending.next]

/-- Whatever completes the character at hand, the bytes are those of the character. -/
def Pending.Faithful (p : Pending) : Prop :=
  ∀ bs v, p.Completes bs v → String.utf8EncodeChar (Char.ofNat v) = p.seen ++ bs

theorem Pending.Faithful.next {p : Pending} {b : UInt8} (h : p.Faithful) (howed : p.owed ≠ 1)
    (hb : p.low ≤ b ∧ b ≤ p.high) : (p.next b).Faithful := by
  intro bs v hbs
  rw [h _ _ (.more howed hb hbs)]
  simp [Pending.next]

/-! ## 2. Characters by the number of their bytes -/

theorem val_toNat_ofNat {v : Nat} (h : v.isValidChar) : (Char.ofNat v).val.toNat = v := by
  rw [Char.ofNat, dif_pos h]
  rfl

/-- One byte: it is an ASCII character. -/
theorem utf8EncodeChar_one {a : UInt8} (ha : a < 0x80) :
    String.utf8EncodeChar (Char.ofNat a.toNat) = [a] := by
  have ha : a.toNat < 128 := ha
  have hv : a.toNat.isValidChar := Or.inl (by omega)
  simp only [String.utf8EncodeChar, val_toNat_ofNat hv]
  rw [if_pos (by omega), UInt8.ofNat_toNat]

/-- Two bytes: the first announces one more. -/
theorem utf8EncodeChar_two {a b : UInt8} (ha : 0xC2 ≤ a ∧ a ≤ 0xDF) (hb : 0x80 ≤ b ∧ b ≤ 0xBF) :
    String.utf8EncodeChar (Char.ofNat (a.toNat % 32 * 64 + b.toNat % 64)) = [a, b] := by
  simp only [UInt8.le_iff_toNat_le, UInt8.reduceToNat] at ha hb
  have hv : (a.toNat % 32 * 64 + b.toNat % 64).isValidChar := Or.inl (by omega)
  simp only [String.utf8EncodeChar, val_toNat_ofNat hv]
  rw [if_neg (by omega), if_pos (by omega)]
  simp only [List.cons.injEq, ← UInt8.toNat_inj, UInt8.toNat_ofNat', and_true]
  omega

/-- Three bytes: the first announces two more; the second is narrowed behind `E0` and `ED`. -/
theorem utf8EncodeChar_three {a b c : UInt8} (ha : 0xE0 ≤ a ∧ a ≤ 0xEF) (hb : 0x80 ≤ b ∧ b ≤ 0xBF)
    (hlow : a = 0xE0 → 0xA0 ≤ b) (hhigh : a = 0xED → b ≤ 0x9F) (hc : 0x80 ≤ c ∧ c ≤ 0xBF) :
    String.utf8EncodeChar
      (Char.ofNat ((a.toNat % 16 * 64 + b.toNat % 64) * 64 + c.toNat % 64)) = [a, b, c] := by
  simp only [UInt8.le_iff_toNat_le, ← UInt8.toNat_inj, UInt8.reduceToNat] at ha hb hlow hhigh hc
  have hv : ((a.toNat % 16 * 64 + b.toNat % 64) * 64 + c.toNat % 64).isValidChar := by
    unfold Nat.isValidChar
    omega
  simp only [String.utf8EncodeChar, val_toNat_ofNat hv]
  rw [if_neg (by omega), if_neg (by omega), if_pos (by omega)]
  simp only [List.cons.injEq, ← UInt8.toNat_inj, UInt8.toNat_ofNat', and_true]
  omega

/-- Four bytes: the first announces three more; the second is narrowed behind `F0` and `F4`. -/
theorem utf8EncodeChar_four {a b c d : UInt8} (ha : 0xF0 ≤ a ∧ a ≤ 0xF4) (hb : 0x80 ≤ b ∧ b ≤ 0xBF)
    (hlow : a = 0xF0 → 0x90 ≤ b) (hhigh : a = 0xF4 → b ≤ 0x8F) (hc : 0x80 ≤ c ∧ c ≤ 0xBF)
    (hd : 0x80 ≤ d ∧ d ≤ 0xBF) :
    String.utf8EncodeChar (Char.ofNat
      (((a.toNat % 8 * 64 + b.toNat % 64) * 64 + c.toNat % 64) * 64 + d.toNat % 64))
      = [a, b, c, d] := by
  simp only [UInt8.le_iff_toNat_le, ← UInt8.toNat_inj, UInt8.reduceToNat] at ha hb hlow hhigh hc hd
  have hv : (((a.toNat % 8 * 64 + b.toNat % 64) * 64 + c.toNat % 64) * 64
      + d.toNat % 64).isValidChar := by
    unfold Nat.isValidChar
    omega
  simp only [String.utf8EncodeChar, val_toNat_ofNat hv]
  rw [if_neg (by omega), if_neg (by omega), if_neg (by omega)]
  simp only [List.cons.injEq, ← UInt8.toNat_inj, UInt8.toNat_ofNat', and_true]
  omega

/-! ## 3. What is read as a character are its bytes -/

theorem Pending.completes_of_owed_one {p : Pending} (howed : p.owed = 1) {bs : Bytes} {v : Nat}
    (h : p.Completes bs v) :
    ∃ b, bs = [b] ∧ (p.low ≤ b ∧ b ≤ p.high) ∧ v = p.value * 64 + b.toNat % 64 := by
  cases h with
  | last _ hb => exact ⟨_, rfl, hb, rfl⟩
  | more howed' _ _ => exact absurd howed howed'

theorem Pending.completes_of_owed_ne_one {p : Pending} (howed : p.owed ≠ 1) {bs : Bytes} {v : Nat}
    (h : p.Completes bs v) :
    ∃ b bs', bs = b :: bs' ∧ (p.low ≤ b ∧ b ≤ p.high) ∧ (p.next b).Completes bs' v := by
  cases h with
  | last howed' _ => exact absurd howed' howed
  | more _ hb h => exact ⟨_, _, rfl, hb, h⟩

/-- What a first byte announces: one more byte, two or three, the second in a range of its own. -/
theorem Pending.ofLead_cases {a : UInt8} {p : Pending} (h : Pending.ofLead a = some p) :
    (0xC2 ≤ a ∧ a ≤ 0xDF) ∧ p = ⟨[a], a.toNat % 32, 1, 0x80, 0xBF⟩ ∨
    (0xE0 ≤ a ∧ a ≤ 0xEF) ∧ (∃ low high, p = ⟨[a], a.toNat % 16, 2, low, high⟩ ∧
      (0x80 ≤ low ∧ high ≤ 0xBF) ∧ (a = 0xE0 → 0xA0 ≤ low) ∧ (a = 0xED → high ≤ 0x9F)) ∨
    (0xF0 ≤ a ∧ a ≤ 0xF4) ∧ (∃ low high, p = ⟨[a], a.toNat % 8, 3, low, high⟩ ∧
      (0x80 ≤ low ∧ high ≤ 0xBF) ∧ (a = 0xF0 → 0x90 ≤ low) ∧ (a = 0xF4 → high ≤ 0x8F)) := by
  unfold Pending.ofLead at h
  split at h
  · cases h
    exact Or.inl ⟨‹_›, rfl⟩
  right
  split at h
  · subst a
    cases h
    exact Or.inl ⟨by decide, 0xA0, 0xBF, rfl, by decide, by decide, by decide⟩
  split at h
  · subst a
    cases h
    exact Or.inl ⟨by decide, 0x80, 0x9F, rfl, by decide, by decide, by decide⟩
  split at h
  · rename_i hE0 hED hE
    cases h
    refine Or.inl ⟨⟨UInt8.le_trans (by decide) hE.1, hE.2⟩, 0x80, 0xBF, rfl, by decide, ?_, ?_⟩
    · exact fun ha => absurd ha hE0
    · exact fun ha => absurd ha hED
  right
  split at h
  · subst a
    cases h
    exact ⟨by decide, 0x90, 0xBF, rfl, by decide, by decide, by decide⟩
  split at h
  · rename_i hF0 hF
    cases h
    refine ⟨⟨UInt8.le_trans (by decide) hF.1, UInt8.le_trans hF.2 (by decide)⟩, 0x80, 0xBF, rfl,
      by decide, fun ha => absurd ha hF0, ?_⟩
    rintro rfl
    exact absurd hF.2 (by decide)
  split at h
  · subst a
    cases h
    exact ⟨by decide, 0x80, 0x8F, rfl, by decide, by decide, by decide⟩
  · cases h

/-- **Behind every first byte only the bytes of a character are read as one.** -/
theorem Pending.faithful_ofLead {a : UInt8} {p : Pending} (h : Pending.ofLead a = some p) :
    p.Faithful := by
  intro bs v hbs
  rcases Pending.ofLead_cases h with ⟨ha, rfl⟩ | ⟨ha, low, high, rfl, hr, hlow, hhigh⟩
    | ⟨ha, low, high, rfl, hr, hlow, hhigh⟩
  · obtain ⟨b, rfl, hb, rfl⟩ := Pending.completes_of_owed_one rfl hbs
    exact utf8EncodeChar_two ha hb
  · obtain ⟨b, bs, rfl, hb, hbs⟩ := Pending.completes_of_owed_ne_one (by decide : (2 : Nat) ≠ 1) hbs
    obtain ⟨c, rfl, hc, rfl⟩ := Pending.completes_of_owed_one rfl hbs
    exact utf8EncodeChar_three ha ⟨UInt8.le_trans hr.1 hb.1, UInt8.le_trans hb.2 hr.2⟩
      (fun h => UInt8.le_trans (hlow h) hb.1) (fun h => UInt8.le_trans hb.2 (hhigh h)) hc
  · obtain ⟨b, bs, rfl, hb, hbs⟩ := Pending.completes_of_owed_ne_one (by decide : (3 : Nat) ≠ 1) hbs
    obtain ⟨c, bs, rfl, hc, hbs⟩ := Pending.completes_of_owed_ne_one (by decide : (2 : Nat) ≠ 1) hbs
    obtain ⟨d, rfl, hd, rfl⟩ := Pending.completes_of_owed_one rfl hbs
    exact utf8EncodeChar_four ha ⟨UInt8.le_trans hr.1 hb.1, UInt8.le_trans hb.2 hr.2⟩
      (fun h => UInt8.le_trans (hlow h) hb.1) (fun h => UInt8.le_trans hb.2 (hhigh h)) hc hd

/-- A reader at rest, or inside a character that only its own bytes complete. -/
def Reader.Faithful (r : Reader) : Prop := ∀ p, r = some p → p.Faithful

/-- A piece whose bytes are those of its character, if it has one. -/
def Piece.Faithful (p : Piece) : Prop := ∀ c, p.char? = some c → String.utf8EncodeChar c = p.bytes

theorem Reader.faithful_enter (b : UInt8) :
    (∀ p ∈ (Reader.enter b).1, p.Faithful) ∧ (Reader.enter b).2.Faithful := by
  unfold Reader.enter
  split
  · rename_i hb
    refine ⟨?_, fun p hp => nomatch hp⟩
    intro p hp c hc
    rw [List.mem_singleton.mp hp] at hc ⊢
    cases hc
    exact utf8EncodeChar_one hb
  · split
    · rename_i p hp
      refine ⟨fun q hq => absurd hq List.not_mem_nil, fun q hq => ?_⟩
      cases hq
      exact Pending.faithful_ofLead hp
    · refine ⟨?_, fun p hp => nomatch hp⟩
      intro p hp c hc
      rw [List.mem_singleton.mp hp] at hc
      cases hc

theorem Reader.faithful_step {r : Reader} (h : r.Faithful) (b : UInt8) :
    (∀ p ∈ (r.step b).1, p.Faithful) ∧ (r.step b).2.Faithful := by
  cases r with
  | none => exact Reader.faithful_enter b
  | some p =>
    unfold Reader.step
    dsimp only
    split
    · rename_i hb
      split
      · rename_i howed
        refine ⟨?_, fun q hq => nomatch hq⟩
        intro q hq c hc
        rw [List.mem_singleton.mp hq] at hc ⊢
        cases hc
        exact h p rfl _ _ (.last howed hb)
      · rename_i howed
        refine ⟨fun q hq => absurd hq List.not_mem_nil, fun q hq => ?_⟩
        cases hq
        exact (h p rfl).next howed hb
    · refine ⟨?_, (Reader.faithful_enter b).2⟩
      intro q hq
      rcases List.mem_cons.mp hq with rfl | hq
      · exact fun c hc => nomatch hc
      · exact (Reader.faithful_enter b).1 q hq

theorem Reader.faithful_read {r : Reader} (h : r.Faithful) (bs : Bytes) :
    ∀ p ∈ Reader.read r bs, p.Faithful := by
  induction bs generalizing r with
  | nil =>
    intro p hp
    cases r with
    | none => cases hp
    | some q =>
      rw [List.mem_singleton.mp hp]
      exact fun c hc => nomatch hc
  | cons b bs ih =>
    intro p hp
    rw [Reader.read, List.mem_append] at hp
    obtain ⟨hpieces, hreader⟩ := Reader.faithful_step h b
    rcases hp with hp | hp
    · exact hpieces p hp
    · exact ih hreader p hp

theorem faithful_of_mem_pieces {bs : Bytes} {p : Piece} (h : p ∈ pieces bs) : p.Faithful :=
  Reader.faithful_read (r := none) (fun _ hr => nomatch hr) bs p h

/-! ## 4. Encoding and decoding -/

theorem encode_of_ofPieces {ps : List Piece} (hps : ∀ p ∈ ps, p.Faithful) {offset : Nat}
    {text : List Char} (h : ofPieces offset ps = .ok text) : encode text = ps.flatMap Piece.bytes := by
  induction ps generalizing offset text with
  | nil => cases h; rfl
  | cons p ps ih =>
    obtain ⟨bytes, _ | c⟩ := p
    · cases h
    · rw [ofPieces] at h
      obtain ⟨text, htext, rfl⟩ : ∃ tail, ofPieces (offset + bytes.length) ps = .ok tail ∧
          c :: tail = text := by
        cases htail : ofPieces (offset + bytes.length) ps with
        | error e => rw [htail] at h; cases h
        | ok tail => rw [htail] at h; cases h; exact ⟨tail, rfl, rfl⟩
      have hc := hps _ List.mem_cons_self c rfl
      rw [encode_cons, hc, ih (fun p hp => hps p (List.mem_cons_of_mem _ hp)) htext,
        List.flatMap_cons]

/-- A text that a byte string decodes to is the one it encodes. -/
theorem encode_of_decode {bs : Bytes} {text : List Char} (h : decode bs = .ok text) :
    encode text = bs := by
  rw [encode_of_ofPieces (fun _ hp => faithful_of_mem_pieces hp) h]
  exact flatten_pieces bs

theorem ofNat_succ_le {a : UInt8} {n : Nat} (hle : UInt8.ofNat n ≤ a) (hne : a ≠ UInt8.ofNat n) :
    UInt8.ofNat (n + 1) ≤ a := by
  rw [UInt8.le_iff_toNat_le, UInt8.toNat_ofNat'] at *
  rw [ne_eq, ← UInt8.toNat_inj, UInt8.toNat_ofNat'] at hne
  omega

/-- The first byte of a character of three bytes, and what may come second. -/
theorem Pending.ofLead_three {a : UInt8} (ha : 0xE0 ≤ a ∧ a ≤ 0xEF) :
    ∃ low high, Pending.ofLead a = some ⟨[a], a.toNat % 16, 2, low, high⟩ ∧
      ∀ b, 0x80 ≤ b ∧ b ≤ 0xBF → (a = 0xE0 → 0xA0 ≤ b) → (a = 0xED → b ≤ 0x9F) →
        low ≤ b ∧ b ≤ high := by
  unfold Pending.ofLead
  rw [if_neg fun h => absurd (UInt8.le_trans ha.1 h.2) (by decide)]
  by_cases hE0 : a = 0xE0
  · exact ⟨0xA0, 0xBF, by rw [if_pos hE0], fun b hb hlow _ => ⟨hlow hE0, hb.2⟩⟩
  rw [if_neg hE0]
  by_cases hED : a = 0xED
  · exact ⟨0x80, 0x9F, by rw [if_pos hED], fun b hb _ hhigh => ⟨hb.1, hhigh hED⟩⟩
  have hE1 : 0xE1 ≤ a := ofNat_succ_le ha.1 hE0
  exact ⟨0x80, 0xBF, by rw [if_neg hED, if_pos ⟨hE1, ha.2⟩], fun b hb _ _ => hb⟩

/-- The first byte of a character of four bytes, and what may come second. -/
theorem Pending.ofLead_four {a : UInt8} (ha : 0xF0 ≤ a ∧ a ≤ 0xF4) :
    ∃ low high, Pending.ofLead a = some ⟨[a], a.toNat % 8, 3, low, high⟩ ∧
      ∀ b, 0x80 ≤ b ∧ b ≤ 0xBF → (a = 0xF0 → 0x90 ≤ b) → (a = 0xF4 → b ≤ 0x8F) →
        low ≤ b ∧ b ≤ high := by
  have hge : ∀ {n : UInt8}, n < 0xF0 → ¬ a ≤ n := fun hn h =>
    UInt8.not_lt.mpr (UInt8.le_trans ha.1 h) hn
  unfold Pending.ofLead
  rw [if_neg fun h => hge (by decide) h.2, if_neg fun h => hge (by decide) (UInt8.le_of_eq h),
    if_neg fun h => hge (by decide) (UInt8.le_of_eq h), if_neg fun h => hge (by decide) h.2]
  by_cases hF0 : a = 0xF0
  · exact ⟨0x90, 0xBF, by rw [if_pos hF0], fun b hb hlow _ => ⟨hlow hF0, hb.2⟩⟩
  rw [if_neg hF0]
  have hF1 : 0xF1 ≤ a := ofNat_succ_le ha.1 hF0
  by_cases hF3 : a ≤ 0xF3
  · exact ⟨0x80, 0xBF, by rw [if_pos ⟨hF1, hF3⟩], fun b hb _ _ => hb⟩
  have hF4 : a = 0xF4 :=
    UInt8.le_antisymm ha.2 (ofNat_succ_le (UInt8.le_of_lt (UInt8.not_le.mp hF3))
      fun h => hF3 (UInt8.le_of_eq h))
  exact ⟨0x80, 0x8F, by rw [if_neg fun h => hF3 h.2, if_pos hF4], fun b hb _ hhigh => ⟨hb.1, hhigh hF4⟩⟩

/-- The byte `a` announces a character that the bytes `bs` complete, and its number is `v`. -/
def Announces (a : UInt8) (bs : Bytes) (v : Nat) : Prop :=
  ¬ a < 0x80 ∧ ∃ p, Pending.ofLead a = some p ∧ p.Completes bs v

theorem announces_two {v : Nat} (hv : 0x80 ≤ v ∧ v ≤ 0x7FF) :
    Announces (UInt8.ofNat (v / 64 % 0x20 + 0xC0)) [UInt8.ofNat (v % 0x40 + 0x80)] v := by
  generalize ha : UInt8.ofNat (v / 64 % 0x20 + 0xC0) = a
  generalize hb : UInt8.ofNat (v % 0x40 + 0x80) = b
  simp only [← UInt8.toNat_inj, UInt8.toNat_ofNat'] at ha hb
  have hr : (0xC2 ≤ a ∧ a ≤ 0xDF) ∧ (0x80 ≤ b ∧ b ≤ 0xBF) := by
    simp only [UInt8.le_iff_toNat_le, UInt8.reduceToNat]
    omega
  have e : v = a.toNat % 32 * 64 + b.toNat % 64 := by omega
  refine ⟨UInt8.not_lt.mpr (UInt8.le_trans (by decide) hr.1.1),
    ⟨[a], a.toNat % 32, 1, 0x80, 0xBF⟩, ?_, ?_⟩
  · rw [Pending.ofLead, if_pos hr.1]
  · rw [e]
    exact .last rfl hr.2

theorem announces_three {v : Nat} (hv : 0x800 ≤ v ∧ v ≤ 0xFFFF) (hvalid : v.isValidChar) :
    Announces (UInt8.ofNat (v / 4096 % 0x10 + 0xE0))
      [UInt8.ofNat (v / 64 % 0x40 + 0x80), UInt8.ofNat (v % 0x40 + 0x80)] v := by
  unfold Nat.isValidChar at hvalid
  generalize ha : UInt8.ofNat (v / 4096 % 0x10 + 0xE0) = a
  generalize hb : UInt8.ofNat (v / 64 % 0x40 + 0x80) = b
  generalize hc : UInt8.ofNat (v % 0x40 + 0x80) = c
  simp only [← UInt8.toNat_inj, UInt8.toNat_ofNat'] at ha hb hc
  have hr : (0xE0 ≤ a ∧ a ≤ 0xEF) ∧ (0x80 ≤ b ∧ b ≤ 0xBF) ∧ (0x80 ≤ c ∧ c ≤ 0xBF) ∧
      (a = 0xE0 → 0xA0 ≤ b) ∧ (a = 0xED → b ≤ 0x9F) := by
    simp only [UInt8.le_iff_toNat_le, ← UInt8.toNat_inj, UInt8.reduceToNat]
    omega
  obtain ⟨hra, hrb, hrc, hlow, hhigh⟩ := hr
  obtain ⟨low, high, hlead, hsecond⟩ := Pending.ofLead_three hra
  have e : v = (a.toNat % 16 * 64 + b.toNat % 64) * 64 + c.toNat % 64 := by omega
  refine ⟨UInt8.not_lt.mpr (UInt8.le_trans (by decide) hra.1), _, hlead, ?_⟩
  rw [e]
  exact .more (by decide : (2 : Nat) ≠ 1) (hsecond b hrb hlow hhigh) (.last rfl hrc)

theorem announces_four {v : Nat} (hv : 0xFFFF < v) (hvalid : v.isValidChar) :
    Announces (UInt8.ofNat (v / 262144 % 0x08 + 0xF0))
      [UInt8.ofNat (v / 4096 % 0x40 + 0x80), UInt8.ofNat (v / 64 % 0x40 + 0x80),
        UInt8.ofNat (v % 0x40 + 0x80)] v := by
  unfold Nat.isValidChar at hvalid
  generalize ha : UInt8.ofNat (v / 262144 % 0x08 + 0xF0) = a
  generalize hb : UInt8.ofNat (v / 4096 % 0x40 + 0x80) = b
  generalize hc : UInt8.ofNat (v / 64 % 0x40 + 0x80) = c
  generalize hd : UInt8.ofNat (v % 0x40 + 0x80) = d
  simp only [← UInt8.toNat_inj, UInt8.toNat_ofNat'] at ha hb hc hd
  have hr : (0xF0 ≤ a ∧ a ≤ 0xF4) ∧ (0x80 ≤ b ∧ b ≤ 0xBF) ∧ (0x80 ≤ c ∧ c ≤ 0xBF) ∧
      (0x80 ≤ d ∧ d ≤ 0xBF) ∧ (a = 0xF0 → 0x90 ≤ b) ∧ (a = 0xF4 → b ≤ 0x8F) := by
    simp only [UInt8.le_iff_toNat_le, ← UInt8.toNat_inj, UInt8.reduceToNat]
    omega
  obtain ⟨hra, hrb, hrc, hrd, hlow, hhigh⟩ := hr
  obtain ⟨low, high, hlead, hsecond⟩ := Pending.ofLead_four hra
  have e : v = ((a.toNat % 8 * 64 + b.toNat % 64) * 64 + c.toNat % 64) * 64 + d.toNat % 64 := by
    omega
  refine ⟨UInt8.not_lt.mpr (UInt8.le_trans (by decide) hra.1), _, hlead, ?_⟩
  rw [e]
  exact .more (by decide : (3 : Nat) ≠ 1) (hsecond b hrb hlow hhigh)
    (.more (by decide : (2 : Nat) ≠ 1) hrc (.last rfl hrd))

/-- The encoding of a character is one ASCII byte, or a byte that announces the others. -/
theorem utf8EncodeChar_cases (c : Char) :
    (∃ a, String.utf8EncodeChar c = [a] ∧ a < 0x80 ∧ Char.ofNat a.toNat = c) ∨
    ∃ a bs, String.utf8EncodeChar c = a :: bs ∧ Announces a bs c.val.toNat := by
  have hvalid : c.val.toNat.isValidChar := c.valid
  simp only [String.utf8EncodeChar]
  by_cases h1 : c.val.toNat ≤ 0x7F
  · have e : (UInt8.ofNat c.val.toNat).toNat = c.val.toNat := by
      rw [UInt8.toNat_ofNat', Nat.mod_eq_of_lt (by omega)]
    rw [if_pos h1]
    refine Or.inl ⟨_, rfl, ?_, ?_⟩
    · rw [UInt8.lt_iff_toNat_lt, e]
      exact Nat.lt_succ_of_le h1
    · rw [e]
      exact Char.ofNat_toNat c
  rw [if_neg h1]
  right
  by_cases h2 : c.val.toNat ≤ 0x7FF
  · rw [if_pos h2]
    exact ⟨_, _, rfl, announces_two ⟨by omega, h2⟩⟩
  rw [if_neg h2]
  by_cases h3 : c.val.toNat ≤ 0xFFFF
  · rw [if_pos h3]
    exact ⟨_, _, rfl, announces_three ⟨by omega, h3⟩ hvalid⟩
  · rw [if_neg h3]
    exact ⟨_, _, rfl, announces_four (by omega) hvalid⟩

/-- An ASCII byte stands in an encoding for itself only. -/
theorem ofNat_mem_of_mem_encode {b : UInt8} (hb : b < 0x80) {text : List Char}
    (h : b ∈ encode text) : Char.ofNat b.toNat ∈ text := by
  obtain ⟨c, hc, hmem⟩ := List.mem_flatMap.mp h
  have hlow : b.toNat < 128 := UInt8.lt_iff_toNat_lt.mp hb
  by_cases hascii : c.val.toNat ≤ 0x7F
  · rw [String.utf8EncodeChar, if_pos hascii, List.mem_singleton] at hmem
    rw [hmem, UInt8.toNat_ofNat', Nat.mod_eq_of_lt (by omega)]
    rwa [show Char.ofNat c.val.toNat = c from Char.ofNat_toNat c]
  · -- the bytes of the longer encodings are all above ASCII
    exfalso
    rw [String.utf8EncodeChar, if_neg hascii] at hmem
    split at hmem
    · simp only [List.mem_cons, List.not_mem_nil, or_false, ← UInt8.toNat_inj,
        UInt8.toNat_ofNat'] at hmem
      omega
    split at hmem
    · simp only [List.mem_cons, List.not_mem_nil, or_false, ← UInt8.toNat_inj,
        UInt8.toNat_ofNat'] at hmem
      omega
    · simp only [List.mem_cons, List.not_mem_nil, or_false, ← UInt8.toNat_inj,
        UInt8.toNat_ofNat'] at hmem
      omega

theorem mem_encode_of_ascii {c : Char} (hascii : c.val.toNat ≤ 0x7F) {text : List Char} (h : c ∈ text) :
    UInt8.ofNat c.val.toNat ∈ encode text := by
  refine List.mem_flatMap.mpr ⟨c, h, ?_⟩
  rw [String.utf8EncodeChar, if_pos hascii]
  exact List.mem_singleton_self _

/-- The bytes of a character behind which others follow are read as that character. -/
theorem read_utf8EncodeChar (c : Char) (rest : Bytes) :
    Reader.read none (String.utf8EncodeChar c ++ rest)
      = ⟨String.utf8EncodeChar c, some c⟩ :: Reader.read none rest := by
  rcases utf8EncodeChar_cases c with ⟨a, hencode, ha, hc⟩ | ⟨a, bs, hencode, ha, p, hlead, hbs⟩
  · have hstep : Reader.step none a = ([⟨[a], some c⟩], none) := by
      simp [Reader.step, Reader.enter, ha, hc]
    rw [hencode, List.singleton_append, Reader.read, hstep]
    rfl
  · have hstep : Reader.step none a = ([], some p) := by
      simp [Reader.step, Reader.enter, ha, hlead]
    have hc : Char.ofNat c.val.toNat = c := Char.ofNat_toNat c
    rw [hencode, List.cons_append, Reader.read, hstep, read_of_completes hbs,
      Pending.seen_ofLead hlead, hc]
    rfl

/-- The characters of a text are read one by one, whatever stands behind it. -/
theorem pieces_encode_append (text : List Char) (rest : Bytes) :
    pieces (encode text ++ rest)
      = text.map (fun c => ⟨String.utf8EncodeChar c, some c⟩) ++ pieces rest := by
  induction text with
  | nil => rfl
  | cons c text ih =>
    rw [pieces, encode_cons, List.append_assoc, read_utf8EncodeChar, List.map_cons, List.cons_append,
      ← ih]
    rfl

theorem pieces_encode (text : List Char) :
    pieces (encode text) = text.map fun c => ⟨String.utf8EncodeChar c, some c⟩ := by
  have h := pieces_encode_append text []
  rwa [List.append_nil, show pieces [] = [] from rfl, List.append_nil] at h

theorem ofPieces_map (text : List Char) (offset : Nat) :
    ofPieces offset (text.map fun c => ⟨String.utf8EncodeChar c, some c⟩) = .ok text := by
  induction text generalizing offset with
  | nil => rfl
  | cons c text ih =>
    rw [List.map_cons, ofPieces, ih]
    rfl

/-- **A byte string decodes to a text exactly if it is the encoding of that text.** -/
theorem decode_eq_ok_iff {bs : Bytes} {text : List Char} :
    decode bs = .ok text ↔ bs = encode text := by
  constructor
  · intro h
    exact (encode_of_decode h).symm
  · rintro rfl
    rw [decode, pieces_encode, ofPieces_map]

end Utf8
end FunctionMap
