import Mathlib
import BoundedPrintf.Text.Utf8

/-! Bytes as UTF-8. They fall into parts, each the encoding of a scalar value or an ill-formed part of
at most three bytes. Reading drops the bytes of ill-formed parts only, so what was read without loss
is encoded by the bytes that it was read from. -/
namespace BoundedPrintf.Text

theorem byteArray_toList_loop (array : ByteArray) (i : Nat) (front : List UInt8) :
    ByteArray.toList.loop array i front = front.reverse ++ array.data.toList.drop i := by
  fun_induction ByteArray.toList.loop array i front with
  | case1 i front inside ih =>
      have bound : i < array.data.toList.length := by simpa using inside
      rw [ih, List.drop_eq_getElem_cons bound]
      simp [ByteArray.get!, inside]
  | case2 i front behind =>
      rw [List.drop_eq_nil_of_le (by simpa using Nat.le_of_not_lt behind)]
      simp

theorem utf8_ofList (chars : List Char) :
    utf8 (String.ofList chars) = chars.flatMap String.utf8EncodeChar := by
  rw [utf8, String.toUTF8_eq_toByteArray, ByteArray.toList, byteArray_toList_loop,
    String.toByteArray_ofList, List.utf8Encode]
  simp

theorem length_utf8 (text : String) : (utf8 text).length = text.utf8ByteSize := by
  rw [utf8, ByteArray.toList, byteArray_toList_loop]
  simp

section Scalars

variable {first : UInt8} {rest tail : Bytes} {ranges : List (UInt8 × UInt8)}

theorem following_eq_take (ranges : List (UInt8 × UInt8)) (rest : Bytes) :
    following ranges rest = rest.take (following ranges rest).length := by
  fun_induction following ranges rest with
  | case1 low high ranges byte rest inside ih =>
      rw [List.length_cons, List.take_succ_cons, ← ih]
  | case2 | case3 => rfl

theorem length_following_le (ranges : List (UInt8 × UInt8)) (rest : Bytes) :
    (following ranges rest).length ≤ ranges.length := by
  fun_induction following ranges rest with
  | case1 low high ranges byte rest inside ih => simpa using ih
  | case2 | case3 => simp

def Within (range : UInt8 × UInt8) (byte : UInt8) : Prop :=
  range.1.toNat ≤ byte.toNat ∧ byte.toNat ≤ range.2.toNat

theorem following_within (complete : (following ranges rest).length = ranges.length) :
    List.Forall₂ Within ranges (following ranges rest) := by
  fun_induction following ranges rest with
  | case1 low high ranges byte rest inside ih =>
      have bounds : Within (low, high) byte := by
        simpa [Within, UInt8.le_iff_toNat_le] using inside
      exact .cons bounds (ih (by simpa using complete))
  | case2 => simp at complete
  | case3 ranges rest other =>
      obtain rfl := List.eq_nil_of_length_eq_zero complete.symm
      exact .nil

/-- The well-formed sequences by their length: a first byte and what may follow it. No sequence is
longer than it needs to be, and none stands for a surrogate. -/
inductive Sequence : UInt8 → Bytes → Prop
  | one {a : UInt8} : a.toNat < 0x80 → Sequence a []
  | two {a b : UInt8} : 0xC2 ≤ a.toNat → a.toNat < 0xE0 → Within (0x80, 0xBF) b → Sequence a [b]
  | three {a b c : UInt8} : 0xE0 ≤ a.toNat → a.toNat < 0xF0 →
      Within (0x80, 0xBF) b → Within (0x80, 0xBF) c →
      (a.toNat = 0xE0 → 0xA0 ≤ b.toNat) → (a.toNat = 0xED → b.toNat ≤ 0x9F) → Sequence a [b, c]
  | four {a b c d : UInt8} : 0xF0 ≤ a.toNat → a.toNat < 0xF5 →
      Within (0x80, 0xBF) b → Within (0x80, 0xBF) c → Within (0x80, 0xBF) d →
      (a.toNat = 0xF0 → 0x90 ≤ b.toNat) → (a.toNat = 0xF4 → b.toNat ≤ 0x8F) → Sequence a [b, c, d]

theorem sequence_of_within (leads : continuation? first = some ranges)
    (within : List.Forall₂ Within ranges tail) : Sequence first tail := by
  have any : continuation?.any = (0x80, 0xBF) := rfl
  simp only [continuation?, any, UInt8.lt_iff_toNat_lt, ← UInt8.toNat_inj, UInt8.reduceToNat]
    at leads
  split at leads
  · next small =>
      cases leads
      cases within
      exact .one small
  split at leads
  · cases leads
  split at leads
  · cases leads
    obtain _ | ⟨second, ⟨⟩⟩ := within
    exact .two (by omega) (by omega) second
  -- The first bytes of longer sequences differ in what they allow behind them.
  have three : ∀ low high : UInt8, 0xE0 ≤ first.toNat → first.toNat < 0xF0 →
      0x80 ≤ low.toNat → high.toNat ≤ 0xBF → (first.toNat = 0xE0 → 0xA0 ≤ low.toNat) →
      (first.toNat = 0xED → high.toNat ≤ 0x9F) →
      List.Forall₂ Within [(low, high), (0x80, 0xBF)] tail → Sequence first tail := by
    rintro low high least most lower upper least₂ most₂ (_ | ⟨⟨above, below⟩, _ | ⟨third, ⟨⟩⟩⟩)
    dsimp only at above below
    exact .three least most ⟨lower.trans above, below.trans upper⟩ third
      (fun same => (least₂ same).trans above) (fun same => below.trans (most₂ same))
  have four : ∀ low high : UInt8, 0xF0 ≤ first.toNat → first.toNat < 0xF5 →
      0x80 ≤ low.toNat → high.toNat ≤ 0xBF → (first.toNat = 0xF0 → 0x90 ≤ low.toNat) →
      (first.toNat = 0xF4 → high.toNat ≤ 0x8F) →
      List.Forall₂ Within [(low, high), (0x80, 0xBF), (0x80, 0xBF)] tail → Sequence first tail := by
    rintro low high least most lower upper least₂ most₂
      (_ | ⟨⟨above, below⟩, _ | ⟨third, _ | ⟨fourth, ⟨⟩⟩⟩⟩)
    dsimp only at above below
    exact .four least most ⟨lower.trans above, below.trans upper⟩ third fourth
      (fun same => (least₂ same).trans above) (fun same => below.trans (most₂ same))
  split at leads
  · cases leads
    exact three 0xA0 0xBF (by omega) (by omega) (by decide) (by decide) (fun _ => by decide)
      (by omega) within
  split at leads
  · cases leads
    exact three 0x80 0x9F (by omega) (by omega) (by decide) (by decide) (by omega)
      (fun _ => by decide) within
  split at leads
  · cases leads
    exact three 0x80 0xBF (by omega) (by omega) (by decide) (by decide) (by omega) (by omega) within
  split at leads
  · cases leads
    exact four 0x90 0xBF (by omega) (by omega) (by decide) (by decide) (fun _ => by decide)
      (by omega) within
  split at leads
  · cases leads
    exact four 0x80 0xBF (by omega) (by omega) (by decide) (by decide) (by omega) (by omega) within
  split at leads
  · cases leads
    exact four 0x80 0x8F (by omega) (by omega) (by decide) (by decide) (by omega)
      (fun _ => by decide) within
  · cases leads

theorem ofNat_eq {value : Nat} {byte : UInt8} (same : value = byte.toNat) :
    UInt8.ofNat value = byte := by
  rw [same, UInt8.ofNat_toNat]

theorem toNat_val_ofNat {value : Nat} (valid : value.isValidChar) :
    (Char.ofNat value).val.toNat = value := by
  have read := Char.toNat_ofNat value
  rwa [if_pos valid] at read

/-- The scalar value of a well-formed sequence has that sequence as its encoding. -/
theorem encode_scalar (sequence : Sequence first tail) :
    String.utf8EncodeChar (scalar first tail) = first :: tail := by
  cases sequence with
  | one small =>
      have value : (scalar first []).val.toNat = first.toNat := by
        have valid : first.toNat.isValidChar := .inl (by omega)
        simpa [scalar, Nat.mod_eq_of_lt small] using toNat_val_ofNat valid
      simp only [String.utf8EncodeChar, value]
      rw [if_pos (by omega), ofNat_eq rfl]
  | @two b least most second =>
      obtain ⟨low, high⟩ := second
      simp only [UInt8.reduceToNat] at low high
      have valid : (first.toNat % 32 * 64 + b.toNat % 64).isValidChar := .inl (by omega)
      have value : (scalar first [b]).val.toNat = first.toNat % 32 * 64 + b.toNat % 64 :=
        toNat_val_ofNat valid
      simp only [String.utf8EncodeChar, value]
      rw [if_neg (by omega), if_pos (by omega), @ofNat_eq _ first (by omega),
        @ofNat_eq _ b (by omega)]
  | @three b c least most second third least₂ most₂ =>
      obtain ⟨low, high⟩ := second
      obtain ⟨lowThird, highThird⟩ := third
      simp only [UInt8.reduceToNat] at low high lowThird highThird
      have valid : ((first.toNat % 16 * 64 + b.toNat % 64) * 64 + c.toNat % 64).isValidChar := by
        simp only [Nat.isValidChar]
        omega
      have value : (scalar first [b, c]).val.toNat =
          (first.toNat % 16 * 64 + b.toNat % 64) * 64 + c.toNat % 64 := toNat_val_ofNat valid
      simp only [String.utf8EncodeChar, value]
      rw [if_neg (by omega), if_neg (by omega), if_pos (by omega), @ofNat_eq _ first (by omega),
        @ofNat_eq _ b (by omega), @ofNat_eq _ c (by omega)]
  | @four b c d least most second third fourth least₂ most₂ =>
      obtain ⟨low, high⟩ := second
      obtain ⟨lowThird, highThird⟩ := third
      obtain ⟨lowFourth, highFourth⟩ := fourth
      simp only [UInt8.reduceToNat] at low high lowThird highThird lowFourth highFourth
      have valid : (((first.toNat % 8 * 64 + b.toNat % 64) * 64 + c.toNat % 64) * 64 +
          d.toNat % 64).isValidChar := by
        simp only [Nat.isValidChar]
        omega
      have value : (scalar first [b, c, d]).val.toNat =
          ((first.toNat % 8 * 64 + b.toNat % 64) * 64 + c.toNat % 64) * 64 + d.toNat % 64 :=
        toNat_val_ofNat valid
      simp only [String.utf8EncodeChar, value]
      rw [if_neg (by omega), if_neg (by omega), if_neg (by omega), @ofNat_eq _ first (by omega),
        @ofNat_eq _ b (by omega), @ofNat_eq _ c (by omega), @ofNat_eq _ d (by omega)]

theorem encode_of_decodeFirst {c : Char} {used : Nat}
    (read : decodeFirst first rest = (some c, used)) :
    String.utf8EncodeChar c = first :: rest.take used := by
  unfold decodeFirst at read
  split at read
  · cases read
  · next ranges leads =>
      obtain ⟨found, rfl⟩ := Prod.mk.inj read
      split at found
      · next complete =>
          cases found
          rw [← following_eq_take]
          exact encode_scalar (sequence_of_within leads (following_within complete))
      · cases found

theorem length_ranges_le (leads : continuation? first = some ranges) : ranges.length ≤ 3 := by
  unfold continuation? at leads
  repeat' split at leads
  all_goals cases leads
  all_goals decide

theorem used_of_decodeFirst {used : Nat} (read : decodeFirst first rest = (none, used)) :
    used ≤ 2 := by
  unfold decodeFirst at read
  split at read
  · cases read
    exact Nat.zero_le 2
  · next ranges leads =>
      obtain ⟨found, rfl⟩ := Prod.mk.inj read
      split at found
      · cases found
      · have most := length_ranges_le leads
        have within := length_following_le ranges rest
        omega

end Scalars

/-- The parts of bytes, each with the scalar value that it encodes, if it encodes one. -/
def parts : Bytes → List (Option Char × Bytes)
  | [] => []
  | first :: rest =>
      let (value, used) := decodeFirst first rest
      (value, first :: rest.take used) :: parts (rest.drop used)
termination_by bytes => bytes.length
decreasing_by
  simp only [List.length_drop, List.length_cons]
  omega

/-- The parts that encode nothing. -/
def illFormed (bytes : Bytes) : List Bytes := ((parts bytes).filter (·.1.isNone)).map Prod.snd

variable {bytes : Bytes} {part : Option Char × Bytes}

theorem decode_eq_map_parts (bytes : Bytes) : decode bytes = (parts bytes).map Prod.fst := by
  fun_induction parts bytes with
  | case1 => rw [decode, List.map_nil]
  | case2 first rest value used read ih => rw [decode, read, List.map_cons, ← ih]

theorem flatMap_parts (bytes : Bytes) : (parts bytes).flatMap Prod.snd = bytes := by
  fun_induction parts bytes with
  | case1 => rfl
  | case2 first rest value used read ih =>
      rw [List.flatMap_cons, ih, List.cons_append, List.take_append_drop]

theorem encode_of_mem_parts (member : part ∈ parts bytes) {c : Char} (read : part.1 = some c) :
    String.utf8EncodeChar c = part.2 := by
  fun_induction parts bytes with
  | case1 => cases member
  | case2 first rest value used found ih =>
      rcases List.mem_cons.mp member with rfl | later
      · exact encode_of_decodeFirst (found.trans (by rw [← read]))
      · exact ih later

theorem length_le_of_mem_parts (member : part ∈ parts bytes) (read : part.1 = none) :
    part.2.length ≤ 3 := by
  fun_induction parts bytes with
  | case1 => cases member
  | case2 first rest value used found ih =>
      rcases List.mem_cons.mp member with rfl | later
      · have few := used_of_decodeFirst (found.trans (by rw [← read]))
        simp only [List.length_cons, List.length_take]
        omega
      · exact ih later

theorem length_le_of_mem_illFormed {part : Bytes} (member : part ∈ illFormed bytes) :
    part.length ≤ 3 := by
  obtain ⟨found, kept, rfl⟩ := List.mem_map.mp member
  obtain ⟨inside, none⟩ := List.mem_filter.mp kept
  exact length_le_of_mem_parts inside (by simpa using none)

/-- What stands for a part in a text: its own bytes, or the replacement character. -/
def shown (part : Option Char × Bytes) : Bytes :=
  if part.1.isNone then String.utf8EncodeChar '\ufffd' else part.2

theorem utf8_decodeLossy (bytes : Bytes) :
    utf8 (decodeLossy bytes) = (parts bytes).flatMap shown := by
  rw [decodeLossy, utf8_ofList, decode_eq_map_parts, List.map_map, List.flatMap_map]
  refine List.flatMap_congr fun part member => ?_
  rcases found : part.1 with _ | c
  · simp [shown, found]
  · simp [shown, found, encode_of_mem_parts member found]

theorem illFormed_eq_nil_iff : illFormed bytes = [] ↔ ∀ part ∈ parts bytes, part.1 ≠ none := by
  simp [illFormed, Option.isNone_iff_eq_none]

/-- Text without ill-formed parts is read without loss. -/
theorem utf8_decodeLossy_of_wellFormed (wellFormed : illFormed bytes = []) :
    utf8 (decodeLossy bytes) = bytes := by
  have same : (parts bytes).flatMap shown = (parts bytes).flatMap Prod.snd := by
    refine List.flatMap_congr fun part member => ?_
    have some := illFormed_eq_nil_iff.mp wellFormed part member
    simp [shown, some]
  rw [utf8_decodeLossy, same, flatMap_parts]

theorem eq_map_some_of_mapM {α : Type} {values : List (Option α)} {found : List α}
    (all : values.mapM id = some found) : values = found.map some := by
  induction values generalizing found with
  | nil => cases all; rfl
  | cons value rest ih =>
      rw [List.mapM_cons] at all
      obtain ⟨first, rfl, others⟩ := Option.bind_eq_some_iff.mp all
      obtain ⟨later, behind, ⟨⟩⟩ := Option.bind_eq_some_iff.mp others
      rw [ih behind, List.map_cons]

theorem wellFormed_of_decode? {text : String} (read : decode? bytes = some text) :
    illFormed bytes = [] := by
  obtain ⟨chars, found, -⟩ := Option.map_eq_some_iff.mp read
  rw [illFormed_eq_nil_iff]
  intro part member none
  have inside : part.1 ∈ (parts bytes).map Prod.fst := List.mem_map_of_mem member
  rw [← decode_eq_map_parts, eq_map_some_of_mapM found, none] at inside
  simp at inside

/-- Where a text shows no replacement character, none of it replaces anything. -/
theorem wellFormed_of_no_replacement (plain : '\ufffd' ∉ (decodeLossy bytes).toList) :
    illFormed bytes = [] := by
  rw [illFormed_eq_nil_iff]
  intro part member none
  refine plain ?_
  rw [decodeLossy, String.toList_ofList, decode_eq_map_parts, List.map_map]
  exact List.mem_map.mpr ⟨part, member, by simp [none]⟩

/-- The text is longer than its bytes by what the ill-formed parts lack of three bytes each. -/
theorem length_utf8_decodeLossy (bytes : Bytes) :
    (utf8 (decodeLossy bytes)).length + (illFormed bytes).flatten.length =
      bytes.length + 3 * (illFormed bytes).length := by
  have replacement : (String.utf8EncodeChar '\ufffd').length = 3 := by decide
  have total : bytes.length = ((parts bytes).flatMap Prod.snd).length := by rw [flatMap_parts]
  rw [utf8_decodeLossy, total, illFormed]
  induction parts bytes with
  | nil => rfl
  | cons part rest ih =>
      cases none : part.1.isNone with
      | true =>
          simp only [List.flatMap_cons, List.filter_cons, none, if_true, List.map_cons,
            List.flatten_cons, List.length_append, List.length_cons, shown, replacement] at ih ⊢
          omega
      | false =>
          simp only [List.flatMap_cons, List.filter_cons, none, Bool.false_eq_true, if_false,
            List.length_append, shown] at ih ⊢
          omega

theorem length_flatten_le {lost : List Bytes} (most : ∀ part ∈ lost, part.length ≤ 3) :
    lost.flatten.length ≤ 3 * lost.length := by
  induction lost with
  | nil => exact le_rfl
  | cons part rest ih =>
      obtain ⟨first, others⟩ := List.forall_mem_cons.mp most
      have later := ih others
      rw [List.flatten_cons, List.length_append, List.length_cons]
      omega

theorem length_le_length_utf8_decodeLossy (bytes : Bytes) :
    bytes.length ≤ (utf8 (decodeLossy bytes)).length := by
  have total := length_utf8_decodeLossy bytes
  have few : (illFormed bytes).flatten.length ≤ 3 * (illFormed bytes).length :=
    length_flatten_le fun part => length_le_of_mem_illFormed
  omega

/-- A text of as many bytes as it was read from replaces three bytes each time. -/
theorem length_of_mem_illFormed (same : (utf8 (decodeLossy bytes)).length = bytes.length)
    {part : Bytes} (member : part ∈ illFormed bytes) : part.length = 3 := by
  have total := length_utf8_decodeLossy bytes
  have most : ∀ part ∈ illFormed bytes, part.length ≤ 3 := fun part => length_le_of_mem_illFormed
  generalize illFormed bytes = lost at member total most
  obtain ⟨before, behind, rfl⟩ := List.append_of_mem member
  -- The parts before and behind lack nothing below zero, so this one lacks nothing either.
  obtain ⟨front, own, back⟩ := by
    simpa only [List.forall_mem_append, List.forall_mem_cons] using most
  have few := length_flatten_le front
  have fewBehind := length_flatten_le back
  simp only [List.flatten_append, List.flatten_cons, List.length_append, List.length_cons] at total
  omega

theorem length_utf8_decodeLossy_eq_iff :
    (utf8 (decodeLossy bytes)).length = bytes.length ↔ ∀ part ∈ illFormed bytes, part.length = 3 := by
  constructor
  · intro same part member
    exact length_of_mem_illFormed same member
  · intro replaced
    have total := length_utf8_decodeLossy bytes
    have lost : (illFormed bytes).flatten.length = (illFormed bytes).length * 3 := by
      rw [List.length_flatten, List.sum_eq_card_nsmul _ 3 (List.forall_mem_map.mpr replaced),
        List.length_map, smul_eq_mul]
    omega

end BoundedPrintf.Text
