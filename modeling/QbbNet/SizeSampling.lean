import Mathlib.Data.Rat.Floor
import QbbNet.Interpolation

set_option autoImplicit false

/- Flow sizes drawn from a distribution by the inverse of its distribution function. -/
namespace QbbNet

open Interpolation

/-- Sizes, each with the percentage of the flows that are no larger. A double is the
number that it stands for. -/
abbrev SizeCdf := List (UInt32 × ℚ)

/-- `(uint32_t) std::floor(std::max(1.0, s) + 0.5)` -/
def roundedSize (s : ℚ) : UInt32 := UInt32.ofNat ⌊max 1 s + 1 / 2⌋.toNat

/-- SampleSizeFromCdf when the generator draws u. -/
def sampleSizeFromCdf (u : ℚ) (cdf : SizeCdf) : UInt32 :=
  let i := cdf.findIdx (fun entry => u ≤ entry.2)
  match cdf[i - 1]?, cdf[i]? with
  | none, _ => 1
  | some back, none => max 1 back.1
  | some (s0, p0), some (s1, p1) =>
      if i = 0 then max 1 s1
      else if p1 ≤ p0 then max 1 s1
      else
        let t := (u - p0) / (p1 - p0)
        roundedSize ((s0.toNat : ℚ) + t * ((s1 - s0).toNat : ℚ))

/-- A table of a distribution: the percentages rise from 0 to 100, the sizes with them. -/
structure IsCdf (cdf : SizeCdf) : Prop where
  percentages : cdf.Pairwise fun a b => a.2 < b.2
  first : cdf.head?.map Prod.snd = some 0
  last : cdf.getLast?.map Prod.snd = some 100
  sizes : cdf.Pairwise fun a b => a.1 ≤ b.1

/-- The table as points of the plane. -/
def points (cdf : SizeCdf) : List (ℚ × ℚ) := cdf.map fun entry => (entry.2, (entry.1.toNat : ℚ))

theorem IsCdf.rising {cdf : SizeCdf} (table : IsCdf cdf) : Rising (points cdf) := by
  rw [Rising, points, List.pairwise_map]
  apply (table.percentages.and table.sizes).imp
  intro a b ⟨before, below⟩
  exact ⟨before, Nat.cast_le.mpr (UInt32.le_iff_toNat_le.mp below)⟩

theorem IsCdf.within {cdf : SizeCdf} (table : IsCdf cdf) {entry : UInt32 × ℚ}
    (member : entry ∈ cdf) :
    0 ≤ entry.2 ∧ entry.2 ≤ 100 := by
  constructor
  · cases cdf with
    | nil => cases member
    | cons head rest =>
      have zero : head.2 = 0 := Option.some.inj table.first
      rcases List.mem_cons.mp member with rfl | later
      · exact zero.ge
      · exact zero.ge.trans (List.rel_of_pairwise_cons table.percentages later).le
  · have ⟨back, last, hundred⟩ := Option.map_eq_some_iff.mp table.last
    have split := List.dropLast_append_getLast? back last
    have order := table.percentages
    rw [← split] at order member
    rcases List.mem_append.mp member with earlier | at_end
    · exact ((List.pairwise_append.mp order).2.2 entry earlier back (by simp)).le.trans hundred.le
    · rw [List.mem_singleton.mp at_end]
      exact hundred.le

theorem toNat_max_one (size : UInt32) : (max 1 size).toNat = max 1 size.toNat := by
  change (if (1 : UInt32) ≤ size then size else 1).toNat = _
  have compare : (1 : UInt32) ≤ size ↔ 1 ≤ size.toNat := UInt32.le_iff_toNat_le
  by_cases positive : (1 : UInt32) ≤ size
  · rw [if_pos positive, max_eq_right (compare.mp positive)]
  · rw [if_neg positive, max_eq_left (not_le.mp (mt compare.mpr positive)).le]
    rfl

theorem roundedSize_toNat {s : ℚ} (small : s ≤ 4294967295) :
    (roundedSize s).toNat = ⌊max 1 s + 1 / 2⌋.toNat := by
  have bounded : max 1 s ≤ 4294967295 := max_le (by norm_num) small
  have fits : ⌊max 1 s + 1 / 2⌋ < 4294967296 := by
    apply Int.floor_lt.mpr
    push_cast
    linarith
  rw [roundedSize, UInt32.toNat_ofNat_of_lt']
  change _ < 4294967296
  omega

theorem roundedSize_mono {s t : ℚ} (le : s ≤ t) (small : t ≤ 4294967295) :
    roundedSize s ≤ roundedSize t := by
  rw [UInt32.le_iff_toNat_le, roundedSize_toNat (le.trans small), roundedSize_toNat small]
  apply Int.toNat_le_toNat
  gcongr

theorem roundedSize_size (size : UInt32) : roundedSize (size.toNat : ℚ) = max 1 size := by
  have fits : (size.toNat : ℚ) ≤ 4294967295 := by
    have small := size.toNat_lt
    exact_mod_cast Nat.le_of_lt_succ small
  apply UInt32.toNat_inj.mp
  rw [roundedSize_toNat fits, toNat_max_one]
  have whole : max 1 (size.toNat : ℚ) = ((max 1 size.toNat : Nat) : ℚ) := by push_cast; rfl
  have rounds : ⌊((max 1 size.toNat : Nat) : ℚ) + 1 / 2⌋ = (max 1 size.toNat : Nat) := by
    rw [Int.floor_natCast_add]
    norm_num
  rw [whole, rounds]
  rfl

/-- The search ends at the segment that holds the draw, or at the first entry. -/
theorem sampleSizeFromCdf_eq {cdf : SizeCdf} (table : IsCdf cdf) {u : ℚ} (least : 0 ≤ u)
    (most : u ≤ 100) : sampleSizeFromCdf u cdf = roundedSize (interpolate (points cdf) u) := by
  have found : cdf.findIdx (fun entry => u ≤ entry.2) < cdf.length := by
    have ⟨entry, last, hundred⟩ := Option.map_eq_some_iff.mp table.last
    rw [List.findIdx_lt_length]
    exact ⟨entry, List.mem_of_getLast? last, by simpa [hundred] using most⟩
  have hit : u ≤ cdf[cdf.findIdx fun entry => u ≤ entry.2].2 := by
    simpa using List.findIdx_getElem (w := found)
  have passed (k : Nat) (there : k < cdf.length)
      (before : k < cdf.findIdx fun entry => u ≤ entry.2) :
      cdf[k].2 < u := by
    simpa using List.not_of_lt_findIdx before
  simp only [sampleSizeFromCdf]
  generalize cdf.findIdx (fun entry => u ≤ entry.2) = i at found hit passed
  cases i with
  | zero =>
    cases cdf with
    | nil => cases found
    | cons entry rest =>
      have zero : entry.2 = 0 := Option.some.inj table.first
      have draw : u = entry.2 := le_antisymm hit (zero.trans_le least)
      simp only [List.getElem?_cons_zero, Nat.zero_sub, ↓reduceIte]
      rw [draw, points, List.map_cons,
        interpolate_first (p := (entry.2, (entry.1.toNat : ℚ))) table.rising,
        roundedSize_size]
  | succ j =>
    have earlier : j < cdf.length := by omega
    have order := List.pairwise_iff_getElem.mp table.percentages j (j + 1) earlier found (by omega)
    have sizes := List.pairwise_iff_getElem.mp table.sizes j (j + 1) earlier found (by omega)
    have segment : interpolate (points cdf) u =
        line (cdf[j].2, (cdf[j].1.toNat : ℚ)) (cdf[j + 1].2, (cdf[j + 1].1.toNat : ℚ)) u := by
      apply interpolate_segment (j := j)
      · simp [points, earlier]
      · simp [points, found]
      · intro point member
        have ⟨k, small, at_k⟩ := List.mem_take_iff_getElem.mp member
        simp only [points, List.getElem_map] at at_k
        rw [← at_k]
        exact passed k (by omega) (by omega)
      · exact hit
    rw [segment, line]
    simp only [Nat.add_sub_cancel, List.getElem?_eq_getElem earlier, List.getElem?_eq_getElem found]
    rw [if_neg (by omega), if_neg (not_le.mpr order), UInt32.toNat_sub_of_le _ _ sizes,
      Nat.cast_sub (UInt32.le_iff_toNat_le.mp sizes)]

theorem mem_points {cdf : SizeCdf} {entry : UInt32 × ℚ} (member : entry ∈ cdf) :
    (entry.2, (entry.1.toNat : ℚ)) ∈ points cdf :=
  List.mem_map_of_mem (f := fun entry : UInt32 × ℚ => (entry.2, (entry.1.toNat : ℚ))) member

/-- The sizes of a distribution are numbers of 32 bits, and so is what lies between them. -/
theorem interpolate_small {cdf : SizeCdf} (table : IsCdf cdf) {u : ℚ} (least : 0 ≤ u)
    (most : u ≤ 100) : interpolate (points cdf) u ≤ 4294967295 := by
  have ⟨front, first, zero⟩ := Option.map_eq_some_iff.mp table.first
  have ⟨back, last, hundred⟩ := Option.map_eq_some_iff.mp table.last
  have between := interpolate_between table.rising (mem_points (List.mem_of_head? first))
    (mem_points (List.mem_of_getLast? last)) (zero.trans_le least) (most.trans_eq hundred.symm)
  have fits : (back.1.toNat : ℚ) ≤ 4294967295 := by
    have small := back.1.toNat_lt
    exact_mod_cast Nat.le_of_lt_succ small
  exact between.2.trans fits

theorem sampleSizeFromCdf_mono {cdf : SizeCdf} (table : IsCdf cdf) {u v : ℚ} (least : 0 ≤ u)
    (le : u ≤ v) (most : v ≤ 100) : sampleSizeFromCdf u cdf ≤ sampleSizeFromCdf v cdf := by
  have ⟨front, first, zero⟩ := Option.map_eq_some_iff.mp table.first
  rw [sampleSizeFromCdf_eq table least (le.trans most),
    sampleSizeFromCdf_eq table (least.trans le) most]
  apply roundedSize_mono _ (interpolate_small table (least.trans le) most)
  exact interpolate_le table.rising (mem_points (List.mem_of_head? first)) (zero.trans_le least) le

theorem sampleSizeFromCdf_entry {cdf : SizeCdf} (table : IsCdf cdf) {entry : UInt32 × ℚ}
    (member : entry ∈ cdf) : sampleSizeFromCdf entry.2 cdf = max 1 entry.1 := by
  have ⟨least, most⟩ := table.within member
  rw [sampleSizeFromCdf_eq table least most, interpolate_point table.rising (mem_points member),
    roundedSize_size]

/-- Larger draws give no smaller sizes. Every size is at least 1, lies between those of
its segment, and at an entry of the table it is the entry's. -/
theorem sampleSizeFromCdf_inverts {cdf : SizeCdf} (table : IsCdf cdf) :
    (∀ u v, 0 ≤ u → u ≤ v → v ≤ 100 → sampleSizeFromCdf u cdf ≤ sampleSizeFromCdf v cdf) ∧
    (∀ u, 0 ≤ u → u ≤ 100 → 1 ≤ sampleSizeFromCdf u cdf) ∧
    (∀ i, ∀ next : i + 1 < cdf.length, ∀ u, cdf[i].2 ≤ u → u ≤ cdf[i + 1].2 →
      max 1 cdf[i].1 ≤ sampleSizeFromCdf u cdf ∧ sampleSizeFromCdf u cdf ≤ max 1 cdf[i + 1].1) ∧
    (∀ entry ∈ cdf, sampleSizeFromCdf entry.2 cdf = max 1 entry.1) := by
  refine ⟨?_, ?_, ?_, ?_⟩
  · intro u v least le most
    exact sampleSizeFromCdf_mono table least le most
  · intro u least most
    have ⟨front, first, zero⟩ := Option.map_eq_some_iff.mp table.first
    have member := List.mem_of_head? first
    have size := sampleSizeFromCdf_entry table member
    have above := sampleSizeFromCdf_mono table zero.ge (zero.trans_le least) most
    rw [size, UInt32.le_iff_toNat_le, toNat_max_one] at above
    rw [UInt32.le_iff_toNat_le]
    exact (le_max_left 1 front.1.toNat).trans above
  · intro i next u after before
    have left := List.getElem_mem (Nat.lt_of_succ_lt next)
    have right := List.getElem_mem next
    rw [← sampleSizeFromCdf_entry table left, ← sampleSizeFromCdf_entry table right]
    have inside := (table.within left).1
    have outside := (table.within right).2
    exact ⟨sampleSizeFromCdf_mono table inside after (before.trans outside),
      sampleSizeFromCdf_mono table (inside.trans after) before outside⟩
  · intro entry member
    exact sampleSizeFromCdf_entry table member

/-- A segment of no size, a rising one and a flat one. -/
def bentSizes : SizeCdf := [(0, 0), (0, 25), (100, 75), (100, 100)]

theorem sampleSizeFromCdf_inverts_bent :
    sampleSizeFromCdf 50 bentSizes = 50 ∧
    sampleSizeFromCdf 50 bentSizes ≤ sampleSizeFromCdf 60 bentSizes ∧
    1 ≤ sampleSizeFromCdf 10 bentSizes ∧
    sampleSizeFromCdf 25 bentSizes = 1 := by
  have table : IsCdf bentSizes :=
    { percentages := by decide +kernel, first := rfl, last := rfl, sizes := by decide +kernel }
  have ⟨mono, least, _, entries⟩ := sampleSizeFromCdf_inverts table
  refine ⟨by decide +kernel, mono 50 60 (by norm_num) (by norm_num) (by norm_num),
    least 10 (by norm_num) (by norm_num), entries (0, 25) (by simp [bentSizes])⟩

end QbbNet
