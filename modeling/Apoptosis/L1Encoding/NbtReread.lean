import Apoptosis.L1Encoding.NbtRoundTrip
/-!
# NBT: writer after reader

A tree that was read can be written, takes no more bytes than it was read
from, and is within the budgets it was read under.

* `encodeBody_length_le`: a string that was read is written no longer.
* `readPayload_spec`: the same for a tree, with its nesting and its tags counted.
* `readUnnamed_spec`, `readUnnamed_image`: a nameless root that was read, and reading its image.
* `reads_settle`: one reading and writing makes a normal form of what either entry point takes.
-/
namespace Apoptosis.L1.Nbt
open Apoptosis.Core.Codec Apoptosis.L1.ModifiedUtf8
open TagReader

/-! ## Strings -/

theorem toNat_ofNat {n : Nat} (h : n.isValidChar) : (Char.ofNat n).toNat = n := by
  rw [Char.ofNat, dif_pos h]
  rfl

theorem charUnits_plain {u : Nat} (hu : u < 0x10000) (h : u < 0xD800 ∨ 0xE000 ≤ u) :
    charUnits (Char.ofNat u) = [u] := by
  have hvalid : u.isValidChar := by
    unfold Nat.isValidChar
    omega
  rw [charUnits, toNat_ofNat hvalid, if_pos hu]

theorem charUnits_pair {u v : Nat} (hu : 0xD800 ≤ u ∧ u < 0xDC00) (hv : 0xDC00 ≤ v ∧ v < 0xE000) :
    charUnits (Char.ofNat (0x10000 + (u - 0xD800) * 0x400 + (v - 0xDC00))) = [u, v] := by
  generalize hn : 0x10000 + (u - 0xD800) * 0x400 + (v - 0xDC00) = n
  have hvalid : n.isValidChar := by
    unfold Nat.isValidChar
    omega
  have hhigh : 0xD800 + (n - 0x10000) / 0x400 = u := by omega
  have hlow : 0xDC00 + (n - 0x10000) % 0x400 = v := by omega
  rw [charUnits, toNat_ofNat hvalid, if_neg (by omega), hhigh, hlow]

/-- Characters made of code units have these code units. -/
theorem flatMap_charUnits {units : List Nat} {cs : List Char} (hlt : ∀ u ∈ units, u < 0x10000)
    (h : fromUtf16 units = some cs) : cs.flatMap charUnits = units := by
  induction units using fromUtf16.induct generalizing cs with
  | case1 =>
    cases h
    rfl
  | case2 u rest hplain ih =>
    rw [fromUtf16.eq_def] at h
    simp only [if_pos hplain] at h
    obtain ⟨cs', hrest, rfl⟩ := Option.map_eq_some_iff.mp h
    obtain ⟨hu, hlt⟩ := List.forall_mem_cons.mp hlt
    rw [List.flatMap_cons, charUnits_plain hu hplain, ih hlt hrest]
    rfl
  | case3 u rest hplain hlow =>
    rw [fromUtf16.eq_def] at h
    simp only [if_neg hplain, if_pos hlow] at h
    cases h
  | case4 u hplain hlow =>
    rw [fromUtf16.eq_def] at h
    simp only [if_neg hplain, if_neg hlow] at h
    cases h
  | case5 u hplain hlow v rest hpair ih =>
    rw [fromUtf16.eq_def] at h
    simp only [if_neg hplain, if_neg hlow, if_pos hpair] at h
    obtain ⟨cs', hrest, rfl⟩ := Option.map_eq_some_iff.mp h
    obtain ⟨-, hlt⟩ := List.forall_mem_cons.mp hlt
    obtain ⟨-, hlt⟩ := List.forall_mem_cons.mp hlt
    rw [List.flatMap_cons, charUnits_pair (by omega) hpair, ih hlt hrest]
    rfl
  | case6 u hplain hlow v rest hpair =>
    rw [fromUtf16.eq_def] at h
    simp only [if_neg hplain, if_neg hlow, if_neg hpair] at h
    cases h

/-- A unit takes as many bytes as its size needs. -/
theorem encodeUnit_length_le (unit : Nat) :
    (encodeUnit unit).length ≤ 3 ∧ (unit ≤ 0x7FF → (encodeUnit unit).length ≤ 2) ∧
      (1 ≤ unit ∧ unit ≤ 0x7F → (encodeUnit unit).length = 1) := by
  unfold encodeUnit
  split_ifs <;> simp <;> omega

/-- One unit off the front of a payload, then the others. -/
theorem units_cons {unit size : Nat} {rest : Bytes} {units : List Nat} (hunit : unit < 0x10000)
    (hsize : (encodeUnit unit).length ≤ size) (h : (unit :: ·) <$> decodeUnits rest = .ok units)
    (ih : ∀ {units}, decodeUnits rest = .ok units →
      (∀ u ∈ units, u < 0x10000) ∧ (units.flatMap encodeUnit).length ≤ rest.length) :
    (∀ u ∈ units, u < 0x10000) ∧ (units.flatMap encodeUnit).length ≤ rest.length + size := by
  cases hrest : decodeUnits rest with
  | error e =>
    rw [hrest] at h
    exact nomatch h
  | ok tail =>
    rw [hrest] at h
    cases h
    obtain ⟨hlt, hlen⟩ := ih hrest
    rw [List.flatMap_cons, List.length_append]
    exact ⟨List.forall_mem_cons.mpr ⟨hunit, hlt⟩, by omega⟩

/-- The code units of a payload fit sixteen bits and are written no longer. -/
theorem decodeUnits_spec {payload : Bytes} {units : List Nat} (h : decodeUnits payload = .ok units) :
    (∀ u ∈ units, u < 0x10000) ∧ (units.flatMap encodeUnit).length ≤ payload.length := by
  induction payload using decodeUnits.induct generalizing units with
  | case1 =>
    cases h
    exact ⟨fun _ hu => (by cases hu), le_refl 0⟩
  | case2 b0 rest hplain ih =>
    rw [decodeUnits.eq_def] at h
    simp only [if_pos hplain] at h
    obtain ⟨-, -, hone⟩ := encodeUnit_length_le b0.toNat
    exact units_cons (by omega) (hone hplain).le h ih
  | case3 b0 hplain htwo =>
    rw [decodeUnits.eq_def] at h
    simp only [if_neg hplain, if_pos htwo] at h
    cases h
  | case4 b0 hplain htwo b1 rest hcont =>
    rw [decodeUnits.eq_def] at h
    simp only [if_neg hplain, if_pos htwo, if_pos hcont] at h
    cases h
  | case5 b0 hplain htwo b1 rest hcont ih =>
    rw [decodeUnits.eq_def] at h
    simp only [if_neg hplain, if_pos htwo, if_neg hcont] at h
    have hlead : b0.toNat &&& 0x1F < 2 ^ 5 := by rw [and_1F]; omega
    have hbits : b1.toNat &&& 0x3F < 2 ^ 6 := by rw [and_3F]; omega
    have hunit : (b0.toNat &&& 0x1F) <<< 6 ||| (b1.toNat &&& 0x3F) < 2 ^ 11 := by
      rw [Nat.shiftLeft_eq, lead_or 6 _ _ hbits]
      omega
    obtain ⟨-, htwo, -⟩ := encodeUnit_length_le ((b0.toNat &&& 0x1F) <<< 6 ||| (b1.toNat &&& 0x3F))
    obtain ⟨hlt, hlen⟩ := units_cons (by omega) (htwo (by omega)) h ih
    exact ⟨hlt, hlen⟩
  | case6 b0 hplain htwo hthree =>
    rw [decodeUnits.eq_def] at h
    simp only [if_neg hplain, if_neg htwo, if_pos hthree] at h
    cases h
  | case7 b0 hplain htwo hthree b1 =>
    rw [decodeUnits.eq_def] at h
    simp only [if_neg hplain, if_neg htwo, if_pos hthree] at h
    cases h
  | case8 b0 hplain htwo hthree b1 b2 rest hcont =>
    rw [decodeUnits.eq_def] at h
    simp only [if_neg hplain, if_neg htwo, if_pos hthree, if_pos hcont] at h
    cases h
  | case9 b0 hplain htwo hthree b1 b2 rest hcont ih =>
    rw [decodeUnits.eq_def] at h
    simp only [if_neg hplain, if_neg htwo, if_pos hthree, if_neg hcont] at h
    have hlead : b0.toNat &&& 0x0F < 2 ^ 4 := by rw [and_0F]; omega
    have hmiddle : b1.toNat &&& 0x3F < 2 ^ 6 := by rw [and_3F]; omega
    have hbits : b2.toNat &&& 0x3F < 2 ^ 6 := by rw [and_3F]; omega
    have hunit : (b0.toNat &&& 0x0F) <<< 12 ||| (b1.toNat &&& 0x3F) <<< 6 ||| (b2.toNat &&& 0x3F) < 2 ^ 16 := by
      refine Nat.or_lt_two_pow (Nat.or_lt_two_pow ?_ ?_) (by omega)
      · rw [Nat.shiftLeft_eq]
        omega
      · rw [Nat.shiftLeft_eq]
        omega
    obtain ⟨hthree, -, -⟩ := encodeUnit_length_le
      ((b0.toNat &&& 0x0F) <<< 12 ||| (b1.toNat &&& 0x3F) <<< 6 ||| (b2.toNat &&& 0x3F))
    obtain ⟨hlt, hlen⟩ := units_cons hunit hthree h ih
    exact ⟨hlt, hlen⟩
  | case10 b0 rest hplain htwo hthree =>
    rw [decodeUnits.eq_def] at h
    simp only [if_neg hplain, if_neg htwo, if_neg hthree] at h
    cases h

/-- A string that was read is written in no more bytes. -/
theorem encodeBody_length_le {payload : Bytes} {value : String} (h : decode payload = .ok value) :
    (encodeBody value).length ≤ payload.length := by
  obtain ⟨units, hunits, h⟩ := bind_eq_ok h
  obtain ⟨hlt, hlen⟩ := decodeUnits_spec hunits
  cases hcs : fromUtf16 units with
  | none =>
    rw [hcs] at h
    exact nomatch h
  | some cs =>
    rw [hcs] at h
    cases h
    rw [encodeBody, encodeUtf16, String.toList_ofList, flatMap_charUnits hlt hcs]
    exact hlen

/-- A string off the cursor is written in no more bytes, and short enough to be read again. -/
theorem string_spec {r r' : TagReader} {value : String} (h : string r = .ok (value, r')) :
    ∃ b, encodeModifiedUtf8 value = .ok b ∧ overI16 value = none ∧
      b.length + r'.rest.length ≤ r.rest.length ∧ r'.limits = r.limits ∧ r'.elements = r.elements := by
  obtain ⟨raw, payload, rfl, hraw, hneg, hpay, h₃⟩ := string_eq_ok h
  have hle := encodeBody_length_le h₃
  have hshort : (BitVec.ofNat 16 (ofBe raw)).toNat ≤ 32767 := by
    rw [BitVec.toInt_eq_toNat_cond] at hneg
    have := (BitVec.ofNat 16 (ofBe raw)).isLt
    split at hneg <;> omega
  have henc : encodableStr value := by
    unfold encodableStr MAX_ENCODED_LEN
    exact decide_eq_true (by omega)
  refine ⟨_, encodeModifiedUtf8_of_encodable henc, ?_, ?_, rfl, rfl⟩
  · exact if_pos (by omega)
  · simp only [List.length_append, toBe_length]
    omega

/-! ## Cursor reads -/

/-- A read that takes `size` bytes and counts no tag. -/
def Takes (size : Nat) (r r' : TagReader) : Prop :=
  r.rest.length = size + r'.rest.length ∧ r'.limits = r.limits ∧ r'.elements = r.elements

theorem Takes.trans {m n : Nat} {r r₁ r' : TagReader} (h : Takes m r r₁) (h' : Takes n r₁ r') :
    Takes (m + n) r r' := by
  obtain ⟨hlen, hlim, hel⟩ := h
  obtain ⟨hlen', hlim', hel'⟩ := h'
  exact ⟨by omega, hlim'.trans hlim, hel'.trans hel⟩

theorem u8_takes {r r' : TagReader} {b : UInt8} (h : u8 r = .ok (b, r')) : Takes 1 r r' := by
  unfold u8 at h
  split at h
  · exact nomatch h
  · next hrest =>
    cases h
    exact ⟨by rw [hrest, List.length_cons, Nat.add_comm], rfl, rfl⟩

theorem take_takes {n : Nat} {r r' : TagReader} {b : Bytes} (h : take n r = .ok (b, r')) :
    b.length = n ∧ Takes n r r' := by
  obtain ⟨hlen, rfl⟩ := take_eq_ok h
  exact ⟨hlen, by rw [List.length_append, hlen], rfl, rfl⟩

theorem be_takes {k w : Nat} {r r' : TagReader} {v : BitVec w} (h : be k w r = .ok (v, r')) :
    Takes k r r' := by
  obtain ⟨⟨raw, r₁⟩, htake, hret⟩ := bind_eq_ok h
  cases hret
  exact (take_takes htake).2

theorem boundedLen_takes {what : String} {r r' : TagReader} {len : Nat}
    (h : boundedLen what r = .ok (len, r')) : Takes 4 r r' ∧ len < 2 ^ 31 := by
  obtain ⟨⟨v, r₁⟩, hread, hret⟩ := bind_eq_ok h
  rcases ite_eq_ok hret with ⟨-, hneg⟩ | ⟨hneg, hret⟩
  · cases hneg
  rcases ite_eq_ok hret with ⟨-, hlong⟩ | ⟨-, hret⟩
  · cases hlong
  cases hret
  refine ⟨be_takes hread, ?_⟩
  rw [BitVec.toInt_eq_toNat_cond] at hneg
  have := v.isLt
  split at hneg <;> omega

theorem budget_spec {r r' : TagReader} (h : r.budget = .ok r') :
    r'.rest = r.rest ∧ r'.limits = r.limits ∧ r'.elements = r.elements + 1 ∧
      r'.elements ≤ r.limits.maxElements := by
  unfold budget at h
  dsimp only at h
  split at h
  · exact nomatch h
  · next hmax =>
    cases h
    exact ⟨rfl, rfl, rfl, not_lt.mp hmax⟩

theorem readMany_takes {w k : Nat} {n : Nat} {r r' : TagReader} {values : List (BitVec w)}
    (h : readMany (be k w) n r = .ok (values, r')) : values.length = n ∧ Takes (n * k) r r' := by
  induction n generalizing r values with
  | zero =>
    cases h
    exact ⟨rfl, by rw [Nat.zero_mul, Nat.zero_add], rfl, rfl⟩
  | succ n ih =>
    obtain ⟨⟨v, r₁⟩, hfirst, h⟩ := bind_eq_ok h
    obtain ⟨⟨values', r₂⟩, hothers, hret⟩ := bind_eq_ok h
    cases hret
    obtain ⟨hlen, htakes⟩ := ih hothers
    rw [List.length_cons, hlen, Nat.succ_mul, Nat.add_comm (n * k)]
    exact ⟨rfl, (be_takes hfirst).trans htakes⟩

theorem readArray_takes {w k : Nat} {what : String} {r r' : TagReader} {values : List (BitVec w)}
    (h : readArray what k (be k w) r = .ok (values, r')) :
    values.length < 2 ^ 31 ∧ Takes (4 + values.length * k) r r' := by
  obtain ⟨⟨len, r₁⟩, hlen, h⟩ := bind_eq_ok h
  rcases ite_eq_ok h with ⟨-, hlong⟩ | ⟨-, h⟩
  · cases hlong
  obtain ⟨htakes, hbound⟩ := boundedLen_takes hlen
  obtain ⟨hvalues, htakes'⟩ := readMany_takes h
  rw [hvalues]
  exact ⟨hbound, htakes.trans htakes'⟩

/-! ## Trees -/

/-- What was read between two places of the cursor has an image no longer, within its budgets. -/
structure Rewritten (image : ServerResult Bytes) (nest tags : Nat) (long : Option Nat) (levels : Nat)
    (r r' : TagReader) : Prop where
  written : ∃ b, image = .ok b ∧ b.length + r'.rest.length ≤ r.rest.length
  shallow : nest ≤ levels
  short : long = none
  limits : r'.limits = r.limits
  counted : r'.elements = r.elements + tags
  within : r.elements ≤ r.limits.maxElements → r'.elements ≤ r.limits.maxElements

namespace Rewritten
variable {image image' : ServerResult Bytes} {nest nest' tags tags' levels : Nat}
  {long long' : Option Nat} {r r₁ r' : TagReader}

theorem trans (h : Rewritten image nest tags long levels r r₁)
    (h' : Rewritten image' nest' tags' long' levels r₁ r') :
    Rewritten (joined image image') (max nest nest') (tags + tags') (long.or long') levels r r' := by
  obtain ⟨b, himage, hlen⟩ := h.written
  obtain ⟨b', himage', hlen'⟩ := h'.written
  have hcounted := h'.counted
  have hwithin := h'.within
  rw [h.limits] at hwithin
  refine ⟨⟨b ++ b', joined_eq_ok.mpr ⟨b, b', himage, himage', rfl⟩, ?_⟩, max_le h.shallow h'.shallow,
    ?_, h'.limits.trans h.limits, ?_, fun hmax => hwithin (h.within hmax)⟩
  · rw [List.length_append]
    omega
  · rw [h.short, h'.short]
    rfl
  · rw [hcounted, h.counted, Nat.add_assoc]

theorem of_takes {size : Nat} {b : Bytes} (h : Takes size r r') (hsize : b.length ≤ size)
    (himage : image = .ok b) : Rewritten image 0 0 none levels r r' := by
  obtain ⟨hlen, hlim, hel⟩ := h
  exact ⟨⟨b, himage, by omega⟩, Nat.zero_le _, rfl, hlim, hel, fun hmax => by rw [hel]; exact hmax⟩

/-- A tag, with what is in it. -/
theorem budget (hbudget : r.budget = .ok r₁) (h : Rewritten image nest tags long levels r₁ r') :
    Rewritten image nest (1 + tags) long levels r r' := by
  obtain ⟨hrest, hlim, hel, hmax⟩ := budget_spec hbudget
  obtain ⟨b, himage, hlen⟩ := h.written
  have hwithin := h.within
  rw [hlim] at hwithin
  rw [hrest] at hlen
  exact ⟨⟨b, himage, hlen⟩, h.shallow, h.short, h.limits.trans hlim, by rw [h.counted, hel, Nat.add_assoc],
    fun _ => hwithin hmax⟩

/-- One more level around it. -/
theorem level (h : Rewritten image nest tags long levels r r') :
    Rewritten image (nest + 1) tags long (levels + 1) r r' :=
  ⟨h.written, Nat.succ_le_succ h.shallow, h.short, h.limits, h.counted, h.within⟩

end Rewritten

/-- A tree that was read, at a number of levels. -/
abbrev Reread (levels : Nat) (r r' : TagReader) (t : NbtTag) : Prop :=
  Rewritten (encodePayload t) (nesting t) (tagCount t) (longString t) levels r r'

/-- A name off the cursor. -/
theorem rewritten_string {levels : Nat} {r r' : TagReader} {value : String}
    (h : string r = .ok (value, r')) :
    Rewritten (encodeModifiedUtf8 value) 0 0 (overI16 value) levels r r' := by
  obtain ⟨b, himage, hshort, hlen, hlim, hel⟩ := string_spec h
  exact ⟨⟨b, himage, hlen⟩, Nat.zero_le _, hshort, hlim, hel, fun hmax => by rw [hel]; exact hmax⟩

variable {levels : Nat}

theorem rewritten_items (ih : ∀ id r t r', readPayload levels id r = .ok (t, r') → Reread levels r r' t)
    {id : UInt8} {n : Nat} {r r' : TagReader} {items : List NbtTag}
    (h : readMany (readPayload levels id) n r = .ok (items, r')) :
    items.length = n ∧ (∀ item ∈ items, item.tagId = id) ∧
      Rewritten (encodeItems items) (nestingItems items) (tagCountItems items) (longItems items) levels r r' := by
  induction n generalizing r items with
  | zero =>
    cases h
    exact ⟨rfl, fun _ hitem => (nomatch hitem), Rewritten.of_takes ⟨(Nat.zero_add _).symm, rfl, rfl⟩ (le_refl 0) rfl⟩
  | succ n ih' =>
    obtain ⟨⟨item, r₁⟩, hfirst, h⟩ := bind_eq_ok h
    obtain ⟨⟨items', r₂⟩, hothers, hret⟩ := bind_eq_ok h
    cases hret
    obtain ⟨hlen, hids, hitems⟩ := ih' hothers
    refine ⟨by rw [List.length_cons, hlen], ?_, (ih id r item r₁ hfirst).trans hitems⟩
    exact List.forall_mem_cons.mpr ⟨readPayload_tagId hfirst, hids⟩

theorem joined_assoc (a b c : ServerResult Bytes) : joined (joined a b) c = joined a (joined b c) := by
  cases a with
  | error e => rfl
  | ok a =>
    cases b with
    | error e => rfl
    | ok b =>
      cases c with
      | error e => rfl
      | ok c => rw [joined_ok, joined_ok, joined_ok, joined_ok, List.append_assoc]

theorem rewritten_entries (ih : ∀ id r t r', readPayload levels id r = .ok (t, r') → Reread levels r r' t)
    {turns : Nat} {r r' : TagReader} {entries : List (String × NbtTag)}
    (h : readEntries (readPayload levels) turns r = .ok (entries, r')) :
    Rewritten (joined (encodeEntries entries) (.ok [tag.END])) (nestingEntries entries)
      (tagCountEntries entries) (longEntries entries) levels r r' := by
  induction turns generalizing r entries with
  | zero => exact nomatch h
  | succ turns ih' =>
    obtain ⟨⟨id, r₁⟩, hid, h⟩ := bind_eq_ok h
    rcases ite_eq_ok h with ⟨-, hret⟩ | ⟨-, h⟩
    · cases hret
      exact Rewritten.of_takes (u8_takes hid) (le_refl 1) rfl
    rcases ite_eq_ok h with ⟨-, hbad⟩ | ⟨-, h⟩
    · cases hbad
    obtain ⟨⟨name, r₂⟩, hname, h⟩ := bind_eq_ok h
    obtain ⟨⟨value, r₃⟩, hvalue, h⟩ := bind_eq_ok h
    obtain ⟨⟨entries', r₄⟩, hothers, hret⟩ := bind_eq_ok h
    cases hret
    have hhead : Rewritten (.ok [value.tagId]) 0 0 none levels r r₁ :=
      Rewritten.of_takes (u8_takes hid) (le_refl 1) rfl
    have hread := hhead.trans ((rewritten_string hname).trans ((ih id r₂ value r₃ hvalue).trans (ih' hothers)))
    rw [Nat.zero_max, Nat.zero_max, Nat.zero_add, Nat.zero_add, Option.none_or] at hread
    rw [encodeEntries, joined_assoc, joined_assoc, joined_assoc, nestingEntries, tagCountEntries, longEntries]
    exact hread

theorem mixedAt_same {id : UInt8} {items : List NbtTag} (h : ∀ item ∈ items, item.tagId = id) :
    mixedAt (elementId items) items = none := by
  rw [mixedAt_eq_none_iff, List.all_eq_true]
  intro item hitem
  cases items with
  | nil => exact nomatch hitem
  | cons first items =>
    rw [h item hitem, elementId, h first List.mem_cons_self]
    exact beq_self_eq_true id

theorem rewritten_list (ih : ∀ id r t r', readPayload levels id r = .ok (t, r') → Reread levels r r' t)
    {id : UInt8} {count : Nat} {r r₁ r₂ r' : TagReader} {items : List NbtTag} (hid : u8 r = .ok (id, r₁))
    (hcount : boundedLen "list" r₁ = .ok (count, r₂))
    (hitems : readMany (readPayload levels id) count r₂ = .ok (items, r')) :
    Rewritten (encodePayload (.list items)) (nestingItems items) (tagCountItems items) (longItems items)
      levels r r' := by
  obtain ⟨hlen, hids, hread⟩ := rewritten_items ih hitems
  obtain ⟨htakes, hbound⟩ := boundedLen_takes hcount
  have hhead : Rewritten (.ok [elementId items]) 0 0 none levels r r₁ :=
    Rewritten.of_takes (u8_takes hid) (le_refl 1) rfl
  have hlength : Rewritten (encodeLen items.length "list") 0 0 none levels r₁ r₂ :=
    Rewritten.of_takes htakes (toBe_length 4 _).le (if_pos (by rw [hlen]; exact hbound))
  have hall := hhead.trans (hlength.trans hread)
  rw [Nat.zero_max, Nat.zero_max, Nat.zero_add, Nat.zero_add, Option.none_or, Option.none_or] at hall
  rw [encodePayload, mixedAt_same hids]
  exact hall

/-- Whatever was read can be written, no longer than it was, and is within the budgets. -/
theorem readPayload_spec (levels : Nat) (id : UInt8) (r : TagReader) (t : NbtTag) (r' : TagReader)
    (h : readPayload levels id r = .ok (t, r')) : Reread levels r r' t := by
  have hsub : ∀ k, levels = k + 1 → ∀ id r t r', readPayload k id r = .ok (t, r') → Reread k r r' t :=
    fun k _ => readPayload_spec k
  rw [readPayload.eq_def] at h
  obtain ⟨r₁, hbudget, h⟩ := bind_eq_ok h
  have hleaf : ∀ {size : Nat} {t : NbtTag} {b : Bytes}, Takes size r₁ r' → encodePayload t = .ok b →
      b.length ≤ size → nesting t = 0 → longString t = none → tagCount t = 1 → Reread levels r r' t := by
    intro size t b htakes himage hsize hflat hshort hone
    have hread : Rewritten (encodePayload t) 0 0 none levels r₁ r' := Rewritten.of_takes htakes hsize himage
    have hall := hread.budget hbudget
    unfold Reread
    rw [hflat, hshort, hone]
    exact hall
  rcases ite_eq_ok h with ⟨-, h⟩ | ⟨-, h⟩
  · obtain ⟨⟨v, r₂⟩, hread, hret⟩ := bind_eq_ok h
    cases hret
    exact hleaf (u8_takes hread) rfl (toBe_length 1 _).le rfl rfl rfl
  rcases ite_eq_ok h with ⟨-, h⟩ | ⟨-, h⟩
  · obtain ⟨⟨v, r₂⟩, hread, hret⟩ := bind_eq_ok h
    cases hret
    exact hleaf (be_takes hread) rfl (toBe_length 2 _).le rfl rfl rfl
  rcases ite_eq_ok h with ⟨-, h⟩ | ⟨-, h⟩
  · obtain ⟨⟨v, r₂⟩, hread, hret⟩ := bind_eq_ok h
    cases hret
    exact hleaf (be_takes hread) rfl (toBe_length 4 _).le rfl rfl rfl
  rcases ite_eq_ok h with ⟨-, h⟩ | ⟨-, h⟩
  · obtain ⟨⟨v, r₂⟩, hread, hret⟩ := bind_eq_ok h
    cases hret
    exact hleaf (be_takes hread) rfl (toBe_length 8 _).le rfl rfl rfl
  rcases ite_eq_ok h with ⟨-, h⟩ | ⟨-, h⟩
  · obtain ⟨⟨v, r₂⟩, hread, hret⟩ := bind_eq_ok h
    cases hret
    exact hleaf (be_takes hread) rfl (toBe_length 4 _).le rfl rfl rfl
  rcases ite_eq_ok h with ⟨-, h⟩ | ⟨-, h⟩
  · obtain ⟨⟨v, r₂⟩, hread, hret⟩ := bind_eq_ok h
    cases hret
    exact hleaf (be_takes hread) rfl (toBe_length 8 _).le rfl rfl rfl
  rcases ite_eq_ok h with ⟨-, h⟩ | ⟨-, h⟩
  · obtain ⟨⟨len, r₂⟩, hlen, h⟩ := bind_eq_ok h
    obtain ⟨⟨bytes, r₃⟩, hread, hret⟩ := bind_eq_ok h
    cases hret
    obtain ⟨htakes, hbound⟩ := boundedLen_takes hlen
    obtain ⟨hbytes, htakes'⟩ := take_takes hread
    rw [← hbytes] at hbound htakes'
    refine hleaf (htakes.trans htakes') (b := toBe 4 bytes.length ++ bytes) ?_ ?_ rfl rfl rfl
    · rw [encodePayload, encodeLen, if_pos hbound, joined_ok]
    · rw [List.length_append, toBe_length]
  rcases ite_eq_ok h with ⟨-, h⟩ | ⟨-, h⟩
  · obtain ⟨⟨value, r₂⟩, hread, hret⟩ := bind_eq_ok h
    cases hret
    exact (rewritten_string hread).budget hbudget
  rcases ite_eq_ok h with ⟨-, h⟩ | ⟨-, h⟩
  · cases levels with
    | zero => cases h
    | succ levels =>
      obtain ⟨⟨elementId, r₂⟩, hid, h⟩ := bind_eq_ok h
      obtain ⟨⟨count, r₃⟩, hcount, h⟩ := bind_eq_ok h
      rcases ite_eq_ok h with ⟨-, hbad⟩ | ⟨-, h⟩
      · cases hbad
      rcases ite_eq_ok h with ⟨-, hbad⟩ | ⟨-, h⟩
      · cases hbad
      obtain ⟨⟨items, r₄⟩, hitems, hret⟩ := bind_eq_ok h
      cases hret
      exact ((rewritten_list (hsub levels rfl) hid hcount hitems).budget hbudget).level
  rcases ite_eq_ok h with ⟨-, h⟩ | ⟨-, h⟩
  · cases levels with
    | zero => cases h
    | succ levels =>
      obtain ⟨⟨entries, r₂⟩, hentries, hret⟩ := bind_eq_ok h
      cases hret
      exact ((rewritten_entries (hsub levels rfl) hentries).budget hbudget).level
  rcases ite_eq_ok h with ⟨-, h⟩ | ⟨-, h⟩
  · obtain ⟨⟨values, r₂⟩, hread, hret⟩ := bind_eq_ok h
    cases hret
    obtain ⟨hbound, htakes⟩ := readArray_takes hread
    refine hleaf htakes (b := toBe 4 values.length ++ intBytes values) ?_ ?_ rfl rfl rfl
    · rw [encodePayload, encodeLen, if_pos hbound, joined_ok]
    · rw [List.length_append, toBe_length, intBytes, flatMap_toBe_length]
  rcases ite_eq_ok h with ⟨-, h⟩ | ⟨-, h⟩
  · obtain ⟨⟨values, r₂⟩, hread, hret⟩ := bind_eq_ok h
    cases hret
    obtain ⟨hbound, htakes⟩ := readArray_takes hread
    refine hleaf htakes (b := toBe 4 values.length ++ longBytes values) ?_ ?_ rfl rfl rfl
    · rw [encodePayload, encodeLen, if_pos hbound, joined_ok]
    · rw [List.length_append, toBe_length, longBytes, flatMap_toBe_length]
  rcases ite_eq_ok h with ⟨-, h⟩ | ⟨-, h⟩ <;> cases h
termination_by levels

/-! ## A nameless root -/

/-- A tree written without a name. -/
def unnamedImage (t : NbtTag) : ServerResult Bytes := joined (.ok [t.tagId]) (encodePayload t)

/-- What the reader needs of a tree besides its image: the two budgets and the strings. -/
structure Readable (lim : Limits) (t : NbtTag) : Prop where
  depth : nesting t ≤ lim.maxDepth + 1
  count : tagCount t ≤ lim.maxElements
  strings : ShortStrings t

theorem readUnnamed_image {t : NbtTag} {c : Bytes} (hc : unnamedImage t = .ok c) {lim : Limits}
    (h : Readable lim t) (r : Bytes) :
    readUnnamed ⟨c ++ r, lim, 0⟩ = .ok (t, ⟨r, lim, tagCount t⟩) := by
  obtain ⟨b₁, b₂, h₁, h₂, rfl⟩ := joined_eq_ok.mp hc
  cases h₁
  have hread := readPayload_encodePayload t h₂ (lim.maxDepth + 1) h.depth r lim 0 (by
    have := h.count
    omega)
  rw [show longString t = none from h.strings, Nat.zero_add] at hread
  rw [readUnnamed, List.append_assoc, List.singleton_append]
  simp only [bind, Except.bind, u8]
  rw [if_neg t.tagId_ne_end, hread]
  rfl

theorem readUnnamed_spec {b : Bytes} {lim : Limits} {t : NbtTag} {r' : TagReader}
    (h : readUnnamed ⟨b, lim, 0⟩ = .ok (t, r')) :
    Readable lim t ∧ ∃ c, unnamedImage t = .ok c ∧ c.length + r'.rest.length ≤ b.length := by
  obtain ⟨⟨id, r₁⟩, hid, h⟩ := bind_eq_ok h
  rcases ite_eq_ok h with ⟨-, h⟩ | ⟨-, h⟩
  · exact nomatch h
  obtain rfl := readPayload_tagId h
  obtain ⟨hlen, hlim, hel⟩ := u8_takes hid
  have hread := readPayload_spec _ _ _ _ _ h
  obtain ⟨c, hc, hshorter⟩ := hread.written
  have hcounted := hread.counted
  have hwithin := hread.within
  have hshallow := hread.shallow
  dsimp only at hlen hlim hel hcounted hwithin hshallow hshorter
  rw [hlim, hel] at hwithin
  rw [hel, Nat.zero_add] at hcounted
  rw [hlim] at hshallow
  refine ⟨⟨hshallow, hcounted ▸ hwithin (Nat.zero_le _), hread.short⟩, t.tagId :: c, ?_, ?_⟩
  · rw [unnamedImage, hc]
    rfl
  · rw [List.length_cons]
    omega

/-! ## A named root -/

/-- A tree written under a name. -/
def namedImage (name : String) (t : NbtTag) : ServerResult Bytes :=
  joined (.ok [t.tagId]) (joined (encodeModifiedUtf8 name) (encodePayload t))

theorem readNamed_image {name : String} {t : NbtTag} {c : Bytes} (hc : namedImage name t = .ok c)
    {lim : Limits} (hname : ShortStr name) (h : Readable lim t) (r : Bytes) :
    readNamed ⟨c ++ r, lim, 0⟩ = .ok ((name, t), ⟨r, lim, tagCount t⟩) := by
  obtain ⟨b₁, b', h₁, h', rfl⟩ := joined_eq_ok.mp hc
  obtain ⟨b₂, b₃, h₂, h₃, rfl⟩ := joined_eq_ok.mp h'
  cases h₁
  have hread := readPayload_encodePayload t h₃ (lim.maxDepth + 1) h.depth r lim 0 (by
    have := h.count
    omega)
  rw [show longString t = none from h.strings, Nat.zero_add] at hread
  have hstring := string_encode h₂ (b₃ ++ r) lim 0
  rw [show overI16 name = none from hname] at hstring
  rw [readNamed, List.append_assoc, List.singleton_append, List.append_assoc]
  simp only [bind, Except.bind, u8]
  rw [if_neg t.tagId_ne_end, hstring]
  simp only [readBack]
  rw [hread]
  rfl

theorem readNamed_spec {b : Bytes} {lim : Limits} {name : String} {t : NbtTag} {r' : TagReader}
    (h : readNamed ⟨b, lim, 0⟩ = .ok ((name, t), r')) :
    ShortStr name ∧ Readable lim t ∧
      ∃ c, namedImage name t = .ok c ∧ c.length + r'.rest.length ≤ b.length := by
  obtain ⟨⟨id, r₁⟩, hid, h⟩ := bind_eq_ok h
  rcases ite_eq_ok h with ⟨-, hbad⟩ | ⟨-, h⟩
  · cases hbad
  obtain ⟨⟨name, r₂⟩, hname, h⟩ := bind_eq_ok h
  obtain ⟨⟨t, r₃⟩, hvalue, hret⟩ := bind_eq_ok h
  cases hret
  obtain rfl := readPayload_tagId hvalue
  obtain ⟨hlen, hlim, hel⟩ := u8_takes hid
  obtain ⟨n, hn, hshort, hnlen, hnlim, hnel⟩ := string_spec hname
  have hread := readPayload_spec _ _ _ _ _ hvalue
  obtain ⟨c, hc, hshorter⟩ := hread.written
  have hcounted := hread.counted
  have hwithin := hread.within
  have hshallow := hread.shallow
  dsimp only at hlen hlim hel hcounted hwithin hshallow hshorter
  rw [hnlim, hlim, hnel, hel] at hwithin
  rw [hnel, hel, Nat.zero_add] at hcounted
  rw [hnlim, hlim] at hshallow
  refine ⟨hshort, ⟨hshallow, hcounted ▸ hwithin (Nat.zero_le _), hread.short⟩, t.tagId :: (n ++ c), ?_, ?_⟩
  · rw [namedImage, hn, hc]
    rfl
  · rw [List.length_cons, List.length_append]
    omega

/-! ## Whole reads -/

/-- mirrors crates/nbt/src/read.rs:377-383 (`NbtTag::read_network_with`) -/
def readNetworkWith (limits : Limits) (bytes : Bytes) : ServerResult (NbtTag × Bytes) := do
  let reader ← TagReader.new bytes limits
  let (t, reader) ← readUnnamed reader
  return (t, reader.rest)

/-- mirrors crates/nbt/src/read.rs:391-397 (`NbtTag::read_named_tag`) -/
def readNamedTag (limits : Limits) (bytes : Bytes) : ServerResult ((String × NbtTag) × Bytes) := do
  let reader ← TagReader.new bytes limits
  let (named, reader) ← readNamed reader
  return (named, reader.rest)

/-- Whatever `read` takes, `write` puts down in no more bytes, and `read` makes the same value of
them with anything behind. -/
def Settles {α : Type} (limits : Limits) (read : Bytes → ServerResult (α × Bytes))
    (write : α → Put ServerError Unit) : Prop :=
  ∀ b a rest, read b = .ok (a, rest) → ∃ c, (∀ out, write a out = (.ok (), out ++ c)) ∧
    c.length + rest.length ≤ b.length ∧
    ∀ tail, (c ++ tail).length ≤ limits.maxBytes → read (c ++ tail) = .ok (a, tail)

theorem new_eq_ok {b : Bytes} {lim : Limits} {r : TagReader} (h : TagReader.new b lim = .ok r) :
    r = ⟨b, lim, 0⟩ := by
  unfold TagReader.new at h
  split at h
  · cases h
  · exact (Except.ok.inj h).symm

/-- One reading and writing is enough: both entry points take what is written for a tree they
took, under the same budgets, for that tree. -/
theorem reads_settle (limits : Limits) :
    Settles limits (readNetworkWith limits) writeUnnamed ∧
      Settles limits (readNamedTag limits) (fun named => writeNamed named.1 named.2) := by
  constructor
  · intro b t rest h
    obtain ⟨r, hnew, h⟩ := bind_eq_ok h
    obtain ⟨⟨t, r'⟩, hread, hret⟩ := bind_eq_ok h
    cases hret
    cases new_eq_ok hnew
    obtain ⟨hreadable, c, hc, hlen⟩ := readUnnamed_spec hread
    refine ⟨c, fun out => ?_, hlen, fun tail hfits => ?_⟩
    · rw [writeUnnamed_spec, show joined (.ok [t.tagId]) (encodePayload t) = .ok c from hc]
      rfl
    · rw [readNetworkWith, new_ok hfits]
      simp only [bind, Except.bind]
      rw [readUnnamed_image hc hreadable tail]
      rfl
  · rintro b ⟨name, t⟩ rest h
    obtain ⟨r, hnew, h⟩ := bind_eq_ok h
    obtain ⟨⟨⟨name, t⟩, r'⟩, hread, hret⟩ := bind_eq_ok h
    cases hret
    cases new_eq_ok hnew
    obtain ⟨hname, hreadable, c, hc, hlen⟩ := readNamed_spec hread
    refine ⟨c, fun out => ?_, hlen, fun tail hfits => ?_⟩
    · dsimp only
      rw [writeNamed_spec, show joined (.ok [t.tagId]) (joined (encodeModifiedUtf8 name)
        (encodePayload t)) = .ok c from hc]
      rfl
    · rw [readNamedTag, new_ok hfits]
      simp only [bind, Except.bind]
      rw [readNamed_image hc hname hreadable tail]
      rfl

end Apoptosis.L1.Nbt
