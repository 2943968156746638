import Mathlib.Tactic.NormNum
import Mathlib.Tactic.Positivity
import SchemaForge.Bytes

/-! Numbers as bytes, padded bytes, and bytes that are handed out one request after the other. -/
namespace SchemaForge
namespace Bytes

/-! Numbers with the lowest byte first. -/

theorem littleEndian_lt (bs : Bytes) : littleEndian bs < 256 ^ bs.length := by
  induction bs with
  | nil => simp [littleEndian]
  | cons b bs ih =>
    have hb := b.toNat_lt
    rw [littleEndian, List.length_cons, Nat.pow_succ]
    omega

/-- What is written and read again is the number without the bytes for which there was no room. -/
theorem littleEndian_ofNat (width n : Nat) : littleEndian (ofNat width n) = n % 256 ^ width := by
  induction width generalizing n with
  | zero => simp [ofNat, littleEndian, Nat.mod_one]
  | succ width ih =>
    have hbyte : (UInt8.ofNat n).toNat = n % 256 := by simp
    rw [ofNat, littleEndian, ih, hbyte, Nat.pow_succ', Nat.mod_mul]

theorem ofNat_littleEndian (bs : Bytes) : ofNat bs.length (littleEndian bs) = bs := by
  induction bs with
  | nil => rfl
  | cons b bs ih =>
    have hb := b.toNat_lt
    have hrest : (b.toNat + 256 * littleEndian bs) / 256 = littleEndian bs := by omega
    have hbyte : UInt8.ofNat (b.toNat + 256 * littleEndian bs) = b := by
      apply UInt8.toNat_inj.1
      rw [UInt8.toNat_ofNat']
      omega
    rw [littleEndian, List.length_cons, ofNat, hrest, ih, hbyte]

/-- The bytes of a number, one digit to the base 256 at each place and the lowest in front. -/
def WrittenIn (width n : Nat) (bs : Bytes) : Prop :=
  bs.length = width ∧ ∀ i b, bs[i]? = some b → b.toNat = n / 256 ^ i % 256

theorem writtenIn_ofNat (width n : Nat) : WrittenIn width n (ofNat width n) := by
  refine ⟨ofNat_length width n, ?_⟩
  intro i b hb
  induction width generalizing n i with
  | zero => simp [ofNat] at hb
  | succ width ih =>
    rw [ofNat] at hb
    cases i with
    | zero =>
      obtain rfl : UInt8.ofNat n = b := by simpa using hb
      simp
    | succ i =>
      rw [List.getElem?_cons_succ] at hb
      rw [ih (n / 256) i hb, Nat.div_div_eq_div_mul, Nat.pow_succ']

theorem isNumberWidth_iff (width : Nat) : isNumberWidth width = true ↔ width ∈ [1, 2, 4] := by
  simp [isNumberWidth, or_assoc]

theorem hasRoom_of_isNumberWidth {width : Nat} (h : width ∈ [1, 2, 4]) : hasRoom width = true := by
  simp only [List.mem_cons, List.not_mem_nil, or_false] at h
  rcases h with rfl | rfl | rfl <;> decide

/-- A number is written as the rest that it leaves in so many bytes. -/
theorem ofNumber_eq {width : Nat} (h : width ∈ [1, 2, 4]) (v : Int) :
    ofNumber v width = .ok (ofNat width (v % 2 ^ (8 * width)).toNat) := by
  have hbase : (2 : Int) ^ (8 * width) = 256 ^ width := by
    rw [pow_mul]
    norm_num
  simp [ofNumber, hasRoom_of_isNumberWidth h, (isNumberWidth_iff width).2 h, hbase]

theorem toNumber_eq {bs : Bytes} (h : bs.length ∈ [1, 2, 4]) : toNumber bs = .ok (littleEndian bs) :=
  if_pos ((isNumberWidth_iff bs.length).2 h)

theorem toNat_emod_lt (v : Int) (bits : Nat) : (v % 2 ^ bits).toNat < 2 ^ bits := by
  have hpos : (0 : Int) < 2 ^ bits := by positivity
  have hlt := Int.emod_lt_of_pos v hpos
  have hcast : ((2 ^ bits : Nat) : Int) = 2 ^ bits := by simp
  omega

/-- Unsigned numbers of one, two and four bytes. What is written for a number is the lowest byte first, it
reads as the number without the bits that do not fit, and bytes that were read are written again. No other
width is read or written. -/
theorem numbers_round_trip :
    (∀ width ∈ [1, 2, 4], ∀ v : Int, ∃ bs n, ofNumber v (width : Nat) = .ok bs ∧
      toNumber bs = .ok n ∧ (n : Int) = v % 2 ^ (8 * width) ∧ WrittenIn width n bs) ∧
    (∀ bs : Bytes, bs.length ∈ [1, 2, 4] →
      ∃ n : Nat, toNumber bs = .ok n ∧ ofNumber n bs.length = .ok bs) ∧
    (∀ width : Int, width ∉ [1, 2, 4] → ∀ v,
      ofNumber v width = .error (if hasRoom width then .writeWidth else .noRoom)) ∧
    ∀ bs : Bytes, bs.length ∉ [1, 2, 4] → toNumber bs = .error .readWidth := by
  refine ⟨?_, ?_, ?_, ?_⟩
  · intro width hwidth v
    have hfits : (v % 2 ^ (8 * width)).toNat % 256 ^ width = (v % 2 ^ (8 * width)).toNat := by
      apply Nat.mod_eq_of_lt
      simpa [pow_mul] using toNat_emod_lt v (8 * width)
    refine ⟨_, _, ofNumber_eq hwidth v, toNumber_eq (by simpa using hwidth), ?_, ?_⟩
    · rw [littleEndian_ofNat, hfits]
      exact Int.toNat_of_nonneg (Int.emod_nonneg v (by positivity))
    · rw [littleEndian_ofNat, hfits]
      exact writtenIn_ofNat width _
  · intro bs hbs
    have hfits : ((littleEndian bs : Int) % 2 ^ (8 * bs.length)).toNat = littleEndian bs := by
      have hlt : littleEndian bs < 2 ^ (8 * bs.length) := by
        simpa [pow_mul] using littleEndian_lt bs
      rw [Int.emod_eq_of_lt (Int.natCast_nonneg _) (by exact_mod_cast hlt), Int.toNat_natCast]
    refine ⟨_, toNumber_eq hbs, ?_⟩
    rw [ofNumber_eq hbs, hfits, ofNat_littleEndian]
  · intro width hwidth v
    cases hroom : hasRoom width with
    | false => simp [ofNumber, hroom]
    | true =>
      obtain ⟨n, rfl⟩ : ∃ n : Nat, width = n := by
        simp only [hasRoom, Bool.and_eq_true, decide_eq_true_eq] at hroom
        exact ⟨width.toNat, by omega⟩
      have hother : isNumberWidth n = false := by
        rw [Bool.eq_false_iff, ne_eq, isNumberWidth_iff]
        intro hn
        apply hwidth
        simp only [List.mem_cons, List.not_mem_nil, or_false] at hn ⊢
        omega
      simp [ofNumber, hroom, hother]
  · intro bs hbs
    exact if_neg (by rwa [isNumberWidth_iff])

theorem numbers_round_trip_sample :
    (2 ∈ [1, 2, 4] ∧ ofNumber (-2) 2 = .ok [254, 255] ∧ toNumber [254, 255] = .ok 65534 ∧
      WrittenIn 2 65534 [254, 255]) ∧
    (∃ n : Nat, toNumber [7, 0, 0, 1] = .ok n ∧ ofNumber n 4 = .ok [7, 0, 0, 1]) ∧
    ofNumber 5 3 = .error .writeWidth ∧ toNumber [1, 2, 3] = .error .readWidth := by
  obtain ⟨hwritten, hread, hother, hlength⟩ := numbers_round_trip
  refine ⟨?_, hread [7, 0, 0, 1] (by decide), hother 3 (by decide) 5, hlength [1, 2, 3] (by decide)⟩
  obtain ⟨bs, n, hbs, hn, hvalue, hform⟩ := hwritten 2 (by decide) (-2)
  obtain rfl : [254, 255] = bs := Except.ok.inj hbs
  obtain rfl : n = 65534 := by
    have hrest : (-2 : Int) % 2 ^ (8 * 2) = 65534 := by decide
    omega
  exact ⟨by decide, hbs, hn, hform⟩

/-! Padding. -/

/-- Zeros in front do not change a number whose highest byte stands first. -/
theorem bigEndian_zeros_append (count : Nat) (bs : Bytes) :
    bigEndian (List.replicate count 0 ++ bs) = bigEndian bs := by
  induction count with
  | zero => rfl
  | succ count ih =>
    rw [List.replicate_succ, List.cons_append]
    exact ih

/-- Bytes get zeros in front unless they are too many already or there is no room for so many. -/
theorem fitInto_eq (bs : Bytes) (n : Nat) : bs.fitInto n =
    if n < bs.length then .error .tooLong
    else if hasRoom n then .ok (List.replicate (n - bs.length) 0 ++ bs) else .error .noRoom := by
  by_cases hlong : n < bs.length
  · simp [fitInto, hlong]
  · simp [fitInto, fit, hlong]

theorem hasRoom_of_le {m n : Nat} (h : m ≤ n) (hn : hasRoom n = true) : hasRoom m = true := by
  simp only [hasRoom, Bool.and_eq_true, decide_eq_true_eq] at hn ⊢
  omega

/-- Padding in two steps is padding in one. -/
theorem fitInto_fitInto {bs : Bytes} {m n : Nat} (hm : bs.length ≤ m) (hn : m ≤ n) :
    (bs.fitInto m >>= fun padded => padded.fitInto n) = bs.fitInto n := by
  have hlong : ¬ m < bs.length := by omega
  have hlong' : ¬ n < bs.length := by omega
  rw [fitInto_eq, fitInto_eq, if_neg hlong, if_neg hlong']
  cases hroom : hasRoom m with
  | false =>
    have hnone : hasRoom n = false := by
      rw [Bool.eq_false_iff]
      intro hall
      simp [hasRoom_of_le hn hall] at hroom
    simp [hnone, bind, Except.bind]
  | true =>
    have hlength : (List.replicate (m - bs.length) (0 : UInt8) ++ bs).length = m := by
      simp
      omega
    have hzeros : n - m + (m - bs.length) = n - bs.length := by omega
    simp only [if_true, bind, Except.bind]
    rw [fitInto_eq, hlength, if_neg (by omega), ← List.append_assoc, List.replicate_append_replicate,
      hzeros]

/-- Bytes are padded to every length that is not shorter than they are and for which there is room. The
number that they stand for stays the same, and it does not matter in how many steps they are padded. -/
theorem padding_keeps_value (bs : Bytes) (n : Nat) :
    (bs.fitInto n = .error .tooLong ↔ n < bs.length) ∧
    ((∃ refusal : Refusal, bs.fitInto n = .error refusal ∧ refusal.isRange = true) ↔
      n < bs.length ∨ hasRoom n = false) ∧
    (bs.length ≤ n → hasRoom n = true →
      ∃ padded, bs.fitInto n = .ok padded ∧ padded.length = n ∧ bigEndian padded = bigEndian bs) ∧
    ∀ m, bs.length ≤ m → m ≤ n → (bs.fitInto m >>= fun padded => padded.fitInto n) = bs.fitInto n := by
  refine ⟨?_, ?_, ?_, fun m hm hn => fitInto_fitInto hm hn⟩
  · rw [fitInto_eq]
    by_cases hlong : n < bs.length
    · simp [hlong]
    · cases hasRoom n <;> simp [hlong]
  · rw [fitInto_eq]
    by_cases hlong : n < bs.length
    · simp [hlong, Refusal.isRange]
    · cases hasRoom n <;> simp [hlong, Refusal.isRange]
  · intro hshort hroom
    refine ⟨List.replicate (n - bs.length) 0 ++ bs, ?_, ?_, bigEndian_zeros_append _ bs⟩
    · rw [fitInto_eq, if_neg (by omega), if_pos hroom]
    · simp
      omega

theorem padding_keeps_value_sample :
    (∃ padded, fitInto [1, 44] 4 = .ok padded ∧ padded.length = 4 ∧ bigEndian padded = 300) ∧
    (fitInto [1, 44] 3 >>= fun padded => padded.fitInto 4) = fitInto [1, 44] 4 := by
  obtain ⟨-, -, hfits, htwice⟩ := padding_keeps_value [1, 44] 4
  exact ⟨hfits (by decide) (by decide), htwice 3 (by decide) (by decide)⟩

/-- A length beyond all room is refused although the bytes are not too many. -/
theorem padding_refused_without_room : ([1] : Bytes).length ≤ 9007199254740992 ∧
    ∃ refusal : Refusal, fitInto [1] 9007199254740992 = .error refusal ∧ refusal.isRange = true :=
  ⟨by decide, .noRoom, by decide, rfl⟩

end Bytes

namespace Cursor
open Bytes

/-! Handing out. -/

/-- The cursor after a sequence of requests. -/
def after (c : Cursor) : List Int → Cursor
  | [] => c
  | count :: counts => (c.take count).2.after counts

/-- All bytes in a sequence of answers. -/
def handed (answers : List (Except Refusal Bytes × Int)) : Bytes :=
  answers.flatMap fun answer => answer.1.toOption.getD []

theorem takeAll_append (c : Cursor) (counts later : List Int) :
    c.takeAll (counts ++ later) = c.takeAll counts ++ (c.after counts).takeAll later := by
  induction counts generalizing c with
  | nil => rfl
  | cons count counts ih => simp [takeAll, after, ih]

@[simp] theorem takeAll_length (c : Cursor) (counts : List Int) :
    (c.takeAll counts).length = counts.length := by
  induction counts generalizing c with
  | nil => rfl
  | cons count counts ih => simp [takeAll, ih]

/-- What one request does behind the first `k` bytes. -/
theorem take_eq (bytes : Bytes) {k : Nat} (hk : k ≤ bytes.length) (n : Nat) :
    take ⟨bytes, k⟩ n = if bytes.length < k + n then (.error .exhausted, ⟨bytes, k⟩)
      else (.ok ((bytes.drop k).take n), ⟨bytes, (k + n : Nat)⟩) := by
  have hnext : offsetAfter ⟨bytes, k⟩ n = (k + n : Nat) := by
    rw [offsetAfter_of_nonneg] <;> simp
    omega
  have hplace : ∀ i : Nat, i ≤ bytes.length → placeOf bytes.length i = i := by
    intro i hi
    simp [placeOf, hi]
  by_cases hlong : bytes.length < k + n
  · have hrefused : ((k + n : Nat) : Int) > bytes.length := by omega
    simp only [take, hnext, hlong, hrefused, if_true]
  · have hgiven : ¬ ((k + n : Nat) : Int) > bytes.length := by omega
    have hslice : bytes.slice k (k + n : Nat) = (bytes.drop k).take n := by
      rw [slice, hplace k hk, hplace (k + n) (by omega), Nat.add_sub_cancel_left]
    simp only [take, hnext, hlong, hgiven, if_false, hslice]

/-- A sequence of requests hands out the bytes between the offset in front of it and the one behind it. -/
theorem handed_takeAll (bytes : Bytes) (counts : List Nat) {k : Nat} (hk : k ≤ bytes.length) :
    ∃ l, k ≤ l ∧ l ≤ bytes.length ∧ after ⟨bytes, k⟩ (counts.map Nat.cast) = ⟨bytes, l⟩ ∧
      handed (takeAll ⟨bytes, k⟩ (counts.map Nat.cast)) = (bytes.drop k).take (l - k) := by
  induction counts generalizing k with
  | nil => exact ⟨k, Nat.le_refl k, hk, rfl, by simp [takeAll, handed]⟩
  | cons n counts ih =>
    have hstep := take_eq bytes hk n
    by_cases hlong : bytes.length < k + n
    · rw [if_pos hlong] at hstep
      obtain ⟨l, hkl, hl, hafter, hhanded⟩ := ih hk
      refine ⟨l, hkl, hl, ?_, ?_⟩
      · simpa [after, hstep] using hafter
      · simpa [takeAll, handed, hstep, Except.toOption] using hhanded
    · rw [if_neg hlong] at hstep
      obtain ⟨l, hkl, hl, hafter, hhanded⟩ := ih (k := k + n) (by omega)
      refine ⟨l, by omega, hl, ?_, ?_⟩
      · simpa [after, hstep] using hafter
      · have hsum : l - k = n + (l - (k + n)) := by omega
        rw [hsum, List.take_add, List.drop_drop, ← hhanded]
        simp [takeAll, handed, hstep, Except.toOption]

/-- The bytes are handed out once and in order. After any requests the cursor stands inside the bytes, and
those in front of it are the ones that were handed out. The next request is refused, and changes nothing,
exactly if it asks for more than the rest; otherwise it gets as many bytes as it asks for. -/
theorem hands_out_once (bytes : Bytes) (before : List Nat) (n : Nat) (later : List Nat) :
    ∃ c : Cursor, after { bytes } (before.map Nat.cast) = c ∧ c.bytes = bytes ∧
      0 ≤ c.offset ∧ c.offset ≤ bytes.length ∧
      handed (takeAll { bytes } (before.map Nat.cast)) = bytes.take c.offset.toNat ∧
      (takeAll { bytes } ((before ++ n :: later).map Nat.cast))[before.length]? =
        some ((c.take n).1, (c.take n).2.offset) ∧
      if bytes.length - c.offset < n then
        ∃ refusal, refusal.isRange = true ∧ c.take n = (.error refusal, c)
      else ∃ bs : Bytes, bs.length = n ∧ c.take n = (.ok bs, { c with offset := c.offset + n }) := by
  obtain ⟨k, -, hk, hafter, hhanded⟩ := handed_takeAll bytes before (Nat.zero_le bytes.length)
  refine ⟨⟨bytes, k⟩, hafter, rfl, Int.natCast_nonneg k, Int.ofNat_le.2 hk, ?_, ?_, ?_⟩
  · simpa using hhanded
  · have hlength : (takeAll { bytes } (before.map Nat.cast)).length = before.length := by simp
    have hsame : after { bytes } (before.map Nat.cast) = ⟨bytes, k⟩ := hafter
    rw [List.map_append, takeAll_append, List.getElem?_append_right (by omega), hlength, hsame]
    simp [takeAll]
  · rw [take_eq bytes hk n]
    by_cases hlong : bytes.length < k + n
    · have hmore : (bytes.length : Int) - k < n := by omega
      rw [if_pos hmore, if_pos hlong]
      exact ⟨.exhausted, rfl, rfl⟩
    · have henough : ¬ (bytes.length : Int) - k < n := by omega
      rw [if_neg henough, if_neg hlong]
      refine ⟨(bytes.drop k).take n, ?_, rfl⟩
      rw [List.length_take, List.length_drop]
      omega

end Cursor
end SchemaForge
