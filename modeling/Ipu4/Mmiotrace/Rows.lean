import Mathlib.Algebra.Group.Int.Defs
import Mathlib.Algebra.GroupWithZero.Nat
import Ipu4.Mmiotrace.Baseline

/-!
# Address rows, printed and parsed

`_fmt_addr` pads the offset to six columns and `_parse_address_row` reads six. An
offset with more digits is printed in full, so the parser cuts it off: the row comes
back whole exactly for offsets of up to four hexadecimal digits.
-/

namespace Ipu4.Mmiotrace

open Text (hex zfill rstrip)

/-- The region and offset of a row are those of its address; its name may be anything. -/
def Mismatch.Located (m : Mismatch) : Prop :=
  ∃ d, lookupAddress m.address = some d ∧ m.desc.region = d.region ∧ m.desc.offset = d.offset

/-- What the normalizer reads from the row of `m`. -/
def Mismatch.parsed (m : Mismatch) : Option (Text × Text) := parseAddressRow ("  ".toList ++ fmtAddr m.desc)

/-- The rows of a report come back: the region without its blanks and the whole offset,
different for different addresses, and nothing from the lines of values. -/
structure RoundTrip (ms : List Mismatch) : Prop where
  key : ∀ m ∈ ms, m.parsed = some m.desc.key
  distinct : ∀ m ∈ ms, ∀ m' ∈ ms, m.address ≠ m'.address → m.parsed ≠ m'.parsed
  values : ∀ values, parseAddressRow ("    silicon: ".toList ++ fmtValues values) = none ∧
    parseAddressRow ("    qemu:    ".toList ++ fmtValues values) = none

/-- No offset takes more than six columns. -/
def ShortOffsets (ms : List Mismatch) : Prop :=
  ∀ m ∈ ms, ∀ offset, m.desc.offset = some offset → offset < 0x10000

variable {m m' : Mismatch} {ms : List Mismatch}

theorem length_fmtOffset (n : Nat) : (fmtOffset (some n)).length ≤ 6 ↔ n < 0x10000 := by
  have hdigits : (hex n).length ≤ 4 ↔ n < 16 ^ 4 := Nat.length_toDigits_le_iff (by decide) (by decide)
  have hprefix : "0x".toList.length = 2 := rfl
  rw [fmtOffset, zfill, List.length_append, List.length_append, List.length_replicate, hprefix]
  omega

theorem Mismatch.Located.parsed_eq (h : m.Located) : m.parsed = some m.desc.printedKey := by
  obtain ⟨d, hd, hregion, hoffset⟩ := h
  exact parseAddressRow_fmtAddr hd hregion hoffset

theorem rstrip_namedRegions_inj : ∀ r ∈ namedRegions, ∀ r' ∈ namedRegions,
    rstrip r.name.toList = rstrip r'.name.toList → r = r' := by
  decide +kernel

theorem Mismatch.Located.key_inj (h : m.Located) (h' : m'.Located) (hkey : m.desc.key = m'.desc.key) :
    m.address = m'.address := by
  obtain ⟨d, hd, hregion, hoffset⟩ := h
  obtain ⟨d', hd', hregion', hoffset'⟩ := h'
  rw [Desc.key, Desc.key, hregion, hoffset, hregion', hoffset'] at hkey
  obtain ⟨r, hr, hstart, rfl⟩ := lookupAddress_eq_some hd
  obtain ⟨r', hr', hstart', rfl⟩ := lookupAddress_eq_some hd'
  obtain ⟨hname, hnum⟩ := Prod.mk.inj hkey
  obtain ⟨c, t, hc, -⟩ := (fits_namedRegions r hr).head
  obtain ⟨c', t', hc', -⟩ := (fits_namedRegions r' hr').head
  have hor : orText ['?'] (r.desc m.address).region = r.name.toList := by simp [Region.desc, orText, hc]
  have hor' : orText ['?'] (r'.desc m'.address).region = r'.name.toList := by
    simp [Region.desc, orText, hc']
  rw [hor, hor'] at hname
  obtain rfl := rstrip_namedRegions_inj r hr r' hr' hname
  have hsub := fmtOffset_inj hnum
  omega

theorem Mismatch.Located.exists_offset (h : m.Located) : ∃ offset, m.desc.offset = some offset := by
  obtain ⟨d, hd, -, hoffset⟩ := h
  obtain ⟨r, -, -, rfl⟩ := lookupAddress_eq_some hd
  exact ⟨_, hoffset⟩

theorem printedKey_eq_iff {d : Desc} (h : d.offset = some offset) :
    d.printedKey = d.key ↔ offset < 0x10000 := by
  have hkey : d.key.2 = fmtOffset (some offset) := by rw [Desc.key, h]
  rw [← length_fmtOffset, Desc.printedKey, Prod.ext_iff, hkey]
  simp only [true_and, List.take_eq_self_iff]

/-- The rows of a report round-trip if and only if no offset has more than four digits. -/
theorem rows_round_trip_iff (ms : List Mismatch) (h : ∀ m ∈ ms, m.Located) :
    RoundTrip ms ↔ ShortOffsets ms := by
  constructor
  · rintro htrip m hm offset hoffset
    have hparsed := htrip.key m hm
    rw [(h m hm).parsed_eq] at hparsed
    exact (printedKey_eq_iff hoffset).mp (Option.some.inj hparsed)
  · intro hshort
    have hkey : ∀ m ∈ ms, m.parsed = some m.desc.key := by
      intro m hm
      obtain ⟨offset, hoffset⟩ := (h m hm).exists_offset
      rw [(h m hm).parsed_eq, (printedKey_eq_iff hoffset).mpr (hshort m hm offset hoffset)]
    refine ⟨hkey, fun m hm m' hm' hne heq => ?_, fun values => ?_⟩
    · rw [hkey m hm, hkey m' hm'] at heq
      exact hne ((h m hm).key_inj (h m' hm') (Option.some.inj heq))
    · exact ⟨parseAddressRow_indented _, parseAddressRow_indented _⟩

/-- The row of an address, with nothing read. -/
def rowAt (a : Nat) (d : Desc) : Mismatch := ⟨a, d, [], [], [], []⟩

/-- Two registers of the buttress, 0x8 and 0x5c. -/
def buttressRows : List Mismatch :=
  [rowAt 0x90000008 ⟨some "buttress ".toList, none, some 8⟩,
    rowAt 0x9000005c ⟨some "buttress ".toList, none, some 0x5c⟩]

theorem rows_round_trip_buttress : RoundTrip buttressRows := by
  refine (rows_round_trip_iff buttressRows fun m hm => ?_).mpr fun m hm => ?_
  · simp only [buttressRows, List.mem_cons, List.not_mem_nil, or_false] at hm
    rcases hm with rfl | rfl
    · exact ⟨_, rfl, rfl, rfl⟩
    · exact ⟨_, rfl, rfl, rfl⟩
  · simp only [buttressRows, List.mem_cons, List.not_mem_nil, or_false] at hm
    rcases hm with rfl | rfl
    · rintro offset ⟨⟩
      decide
    · rintro offset ⟨⟩
      decide

/-- Two registers of the buttress, 0x1000 and 0x10000. -/
theorem buttress_row_cut : ¬ ∀ ms : List Mismatch, (∀ m ∈ ms, m.Located) → RoundTrip ms := by
  intro h
  have htrip := h [rowAt 0x90001000 ⟨some "buttress ".toList, none, some 0x1000⟩,
    rowAt 0x90010000 ⟨some "buttress ".toList, none, some 0x10000⟩] (by
      intro m hm
      simp only [List.mem_cons, List.not_mem_nil, or_false] at hm
      rcases hm with rfl | rfl <;> exact ⟨_, rfl, rfl, rfl⟩)
  exact htrip.distinct _ (List.mem_cons_self) _ (List.mem_cons_of_mem _ List.mem_cons_self) (by decide)
    (by decide +kernel)

end Ipu4.Mmiotrace
