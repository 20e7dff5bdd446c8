import Mathlib.Data.List.Induction
import QbbNet.SizeCdfFile

set_option autoImplicit false

/- When the table that LoadSizeCdf makes is one of a distribution. -/
namespace QbbNet

/-- The size is less than every size that is given for the percentage p. -/
def Below (entries : SizeCdf) (p : ℚ) (size : UInt32) : Prop := ∀ f ∈ entries, f.2 = p → size < f.1

instance (entries : SizeCdf) (p : ℚ) (size : UInt32) : Decidable (Below entries p size) :=
  inferInstanceAs (Decidable (∀ f ∈ entries, f.2 = p → size < f.1))

/-- Some percentage has two entries that are both below a smaller percentage. -/
def Undercut (entries : SizeCdf) : Prop :=
  ∃ p q, (∃ e ∈ entries, e.2 = p) ∧ p < q ∧
    2 ≤ (entries.filter fun e => e.2 = q ∧ Below entries p e.1).length

theorem Undercut.perm {entries other : SizeCdf} (perm : entries.Perm other)
    (undercut : Undercut entries) : Undercut other := by
  have ⟨p, q, ⟨e, member, at_p⟩, less, two⟩ := undercut
  refine ⟨p, q, ⟨e, perm.mem_iff.mp member, at_p⟩, less, ?_⟩
  have same : (fun e : UInt32 × ℚ => decide (e.2 = q ∧ Below entries p e.1)) =
      fun e => decide (e.2 = q ∧ Below other p e.1) := by
    funext e
    rw [decide_eq_decide]
    simp only [Below, perm.mem_iff]
  rw [← same, ← (perm.filter _).length_eq]
  exact two

theorem exists_below {entries : SizeCdf} {p q : ℚ}
    (found : 0 < (entries.filter fun e => e.2 = q ∧ Below entries p e.1).length) :
    ∃ e ∈ entries, e.2 = q ∧ Below entries p e.1 := by
  have ⟨e, member⟩ := List.exists_mem_of_length_pos found
  have ⟨there, shape⟩ := List.mem_filter.mp member
  exact ⟨e, there, by simpa using shape⟩

theorem undercut_iff {entries : SizeCdf} :
    Undercut entries ↔ ∃ a ∈ entries, ∃ b ∈ entries, a.2 < b.2 ∧
      2 ≤ (entries.filter fun e => e.2 = b.2 ∧ Below entries a.2 e.1).length := by
  constructor
  · rintro ⟨_, q, ⟨a, a_there, rfl⟩, less, two⟩
    have ⟨b, b_there, at_q, _⟩ := exists_below (Nat.lt_of_lt_of_le Nat.zero_lt_two two)
    rw [← at_q] at less two
    exact ⟨a, a_there, b, b_there, less, two⟩
  · intro ⟨a, a_there, b, _, less, two⟩
    exact ⟨a.2, b.2, ⟨a, a_there, rfl⟩, less, two⟩

instance (entries : SizeCdf) : Decidable (Undercut entries) := decidable_of_iff' _ undercut_iff

theorem below_snoc {done : SizeCdf} {x : UInt32 × ℚ} {p : ℚ} (other : x.2 ≠ p) (size : UInt32) :
    Below (done ++ [x]) p size ↔ Below done p size := by
  simp [Below, or_imp, forall_and, other]

theorem all_snoc {done : SizeCdf} {x : UInt32 × ℚ} {p : ℚ} (other : x.2 ≠ p) (size : UInt32) :
    (∀ e ∈ done ++ [x], e.2 = p → size ≤ e.1) ↔ ∀ e ∈ done, e.2 = p → size ≤ e.1 := by
  simp [or_imp, forall_and, other]

/-- The entries of a percentage that are below another, when there is one more entry. -/
theorem filter_below_snoc {done : SizeCdf} {x : UInt32 × ℚ} {p q : ℚ} (other : x.2 ≠ p) :
    ((done ++ [x]).filter fun e => e.2 = q ∧ Below (done ++ [x]) p e.1).length =
      (done.filter fun e => e.2 = q ∧ Below done p e.1).length +
        if x.2 = q ∧ Below done p x.1 then 1 else 0 := by
  simp only [below_snoc other, List.filter_append, List.length_append]
  by_cases more : x.2 = q ∧ Below done p x.1
  · rw [if_pos more, List.filter_cons_of_pos (by simpa using more)]
    rfl
  · rw [if_neg more, List.filter_cons_of_neg (by simpa using more)]
    rfl

/-- A new entry of the largest percentage undercuts a smaller one along with an earlier
entry of its own. -/
theorem undercut_snoc {done : SizeCdf} {x : UInt32 × ℚ} (last : ∀ e ∈ done, e.2 ≤ x.2) :
    Undercut (done ++ [x]) ↔ Undercut done ∨
      ∃ p < x.2, (∃ e ∈ done, e.2 = p) ∧ Below done p x.1 ∧
        ∃ y ∈ done, y.2 = x.2 ∧ Below done p y.1 := by
  constructor
  · intro ⟨p, q, ⟨e, member, at_p⟩, less, two⟩
    have at_most : q ≤ x.2 := by
      have ⟨f, there, at_q, _⟩ := exists_below (Nat.lt_of_lt_of_le Nat.zero_lt_two two)
      rcases List.mem_append.mp there with earlier | new
      · exact at_q ▸ last f earlier
      · rw [← at_q, List.mem_singleton.mp new]
    have other : x.2 ≠ p := (less.trans_le at_most).ne'
    have earlier : e ∈ done := by
      rcases List.mem_append.mp member with earlier | new
      · exact earlier
      · rw [List.mem_singleton.mp new] at at_p
        exact absurd at_p other
    rw [filter_below_snoc other] at two
    by_cases more : x.2 = q ∧ Below done p x.1
    · rw [if_pos more] at two
      have ⟨y, there, at_q, below⟩ := exists_below (Nat.lt_of_succ_le (Nat.le_of_succ_le_succ two))
      exact .inr ⟨p, less.trans_le at_most, ⟨e, earlier, at_p⟩, more.2, y, there,
        at_q.trans more.1.symm, below⟩
    · rw [if_neg more] at two
      exact .inl ⟨p, q, ⟨e, earlier, at_p⟩, less, two⟩
  · rintro (⟨p, q, ⟨e, member, at_p⟩, less, two⟩ |
      ⟨p, less, ⟨e, member, at_p⟩, new, y, there, same, old⟩)
    · have at_most : q ≤ x.2 := by
        have ⟨f, there, at_q, _⟩ := exists_below (Nat.lt_of_lt_of_le Nat.zero_lt_two two)
        exact at_q ▸ last f there
      refine ⟨p, q, ⟨e, List.mem_append_left _ member, at_p⟩, less, ?_⟩
      rw [filter_below_snoc (less.trans_le at_most).ne']
      omega
    · refine ⟨p, x.2, ⟨e, List.mem_append_left _ member, at_p⟩, less, ?_⟩
      rw [filter_below_snoc less.ne', if_pos ⟨rfl, new⟩]
      have one : 0 < (done.filter fun e => e.2 = x.2 ∧ Below done p e.1).length :=
        List.length_pos_of_mem (List.mem_filter.mpr ⟨there, by simpa using ⟨same, old⟩⟩)
      omega

theorem entryLe_percentage {a b : UInt32 × ℚ} (le : entryLe a b) : a.2 ≤ b.2 := by
  unfold entryLe at le
  by_cases same : a.2 = b.2
  · exact same.le
  · rw [if_neg same] at le
    exact le.le

theorem entryLe_size {a b : UInt32 × ℚ} (le : entryLe a b) (same : a.2 = b.2) : a.1 ≤ b.1 := by
  unfold entryLe at le
  rwa [if_pos same] at le

instance : Std.Total entryLe where
  total a b := by
    unfold entryLe
    by_cases same : a.2 = b.2
    · rw [if_pos same, if_pos same.symm]
      exact UInt32.le_total a.1 b.1
    · rw [if_neg same, if_neg (Ne.symm same)]
      exact lt_or_gt_of_ne same

instance : IsTrans (UInt32 × ℚ) entryLe where
  trans a b c first second := by
    have left := entryLe_percentage first
    have right := entryLe_percentage second
    unfold entryLe
    by_cases same : a.2 = c.2
    · have middle : a.2 = b.2 := le_antisymm left (right.trans same.ge)
      rw [if_pos same]
      exact UInt32.le_trans (entryLe_size first middle)
        (entryLe_size second (middle.symm.trans same))
    · rw [if_neg same]
      exact lt_of_le_of_ne (left.trans right) same

/-- The loop after some entries in ascending order: each size in the table is at least
one that is given for its percentage, and at most all that are given for some percentage
up to it. -/
structure Cleaned (done : SizeCdf) (s : Cleaning) (front : SizeCdf) : Prop where
  cleaned : s.cleaned = front ++ [(s.lastSize, s.lastCdf)]
  percentages : s.cleaned.Pairwise fun a b => a.2 < b.2
  occurs : ∀ q, (∃ entry ∈ s.cleaned, entry.2 = q) ↔ ∃ e ∈ done, e.2 = q
  held : ∀ entry ∈ s.cleaned, ∃ e ∈ done, e.2 = entry.2 ∧ e.1 ≤ entry.1
  reached : ∀ entry ∈ s.cleaned, ∃ p ≤ entry.2, (∃ e ∈ done, e.2 = p) ∧
    ∀ e ∈ done, e.2 = p → entry.1 ≤ e.1
  sizes : (s.cleaned.Pairwise fun a b => a.1 ≤ b.1) ↔ ¬Undercut done

namespace Cleaned

variable {done front : SizeCdf} {s : Cleaning} {x : UInt32 × ℚ}

theorem mem_last (table : Cleaned done s front) : (s.lastSize, s.lastCdf) ∈ s.cleaned := by
  rw [table.cleaned]
  simp

theorem before_last (table : Cleaned done s front) {entry : UInt32 × ℚ} (member : entry ∈ front) :
    entry.2 < s.lastCdf := by
  have order := table.percentages
  rw [table.cleaned] at order
  exact (List.pairwise_append.mp order).2.2 entry member _ (List.mem_singleton.mpr rfl)

theorem le_last (table : Cleaned done s front) {e : UInt32 × ℚ} (member : e ∈ done) :
    e.2 ≤ s.lastCdf := by
  have ⟨entry, there, same⟩ := (table.occurs e.2).mpr ⟨e, member, rfl⟩
  rw [table.cleaned] at there
  rcases List.mem_append.mp there with earlier | last
  · rw [← same]
    exact (table.before_last earlier).le
  · rw [List.mem_singleton] at last
    rw [← same, last]

theorem le_lastSize (table : Cleaned done s front)
    (rising : s.cleaned.Pairwise fun a b => a.1 ≤ b.1) {entry : UInt32 × ℚ}
    (member : entry ∈ s.cleaned) : entry.1 ≤ s.lastSize := by
  rw [table.cleaned] at member rising
  rcases List.mem_append.mp member with earlier | last
  · exact (List.pairwise_append.mp rising).2.2 entry earlier _ (List.mem_singleton.mpr rfl)
  · rw [List.mem_singleton.mp last]
    exact UInt32.le_refl s.lastSize

/-- An entry of a new percentage gets at least the last size. -/
theorem extend (table : Cleaned done s front) (later : s.lastCdf < x.2) {size : UInt32}
    (least : s.lastSize ≤ size) (own : x.1 ≤ size) (either : size = s.lastSize ∨ size = x.1) :
    Cleaned (done ++ [x]) ⟨s.cleaned ++ [(size, x.2)], x.2, size⟩ s.cleaned := by
  have new {e : UInt32 × ℚ} (member : e ∈ done) : e.2 < x.2 := (table.le_last member).trans_lt later
  have order {entry : UInt32 × ℚ} (member : entry ∈ s.cleaned) : entry.2 < x.2 := by
    have ⟨e, there, same⟩ := (table.occurs entry.2).mp ⟨entry, member, rfl⟩
    exact same ▸ new there
  refine ⟨rfl, ?_, ?_, ?_, ?_, ?_⟩
  · refine List.pairwise_append.mpr ⟨table.percentages, List.pairwise_singleton _ _, ?_⟩
    intro a member b last
    rw [List.mem_singleton.mp last]
    exact order member
  · intro q
    simp only [List.mem_append, List.mem_singleton, or_and_right, exists_or, exists_eq_left,
      table.occurs]
  · intro entry member
    rcases List.mem_append.mp member with earlier | last
    · have ⟨e, there, same, le⟩ := table.held entry earlier
      exact ⟨e, List.mem_append_left _ there, same, le⟩
    · rw [List.mem_singleton.mp last]
      exact ⟨x, List.mem_append_right _ (List.mem_singleton.mpr rfl), rfl, own⟩
  · intro entry member
    rcases List.mem_append.mp member with earlier | last
    · have ⟨p, at_most, ⟨e, there, same⟩, all⟩ := table.reached entry earlier
      exact ⟨p, at_most, ⟨e, List.mem_append_left _ there, same⟩,
        (all_snoc (at_most.trans_lt (order earlier)).ne' _).mpr all⟩
    · rw [List.mem_singleton.mp last]
      rcases either with kept | raised
      · have ⟨p, at_most, ⟨e, there, same⟩, all⟩ := table.reached _ table.mem_last
        rw [kept]
        exact ⟨p, (at_most.trans_lt later).le, ⟨e, List.mem_append_left _ there, same⟩,
          (all_snoc (at_most.trans_lt later).ne' _).mpr all⟩
      · refine ⟨x.2, le_rfl, ⟨x, by simp, rfl⟩, ?_⟩
        intro e there same
        rcases List.mem_append.mp there with earlier | at_end
        · exact absurd same (new earlier).ne
        · rw [List.mem_singleton.mp at_end, raised]
          exact UInt32.le_refl x.1
  · have only : Undercut (done ++ [x]) ↔ Undercut done := by
      rw [undercut_snoc fun e member => (new member).le]
      constructor
      · rintro (undercut | ⟨p, less, occurs, below, y, there, same, _⟩)
        · exact undercut
        · exact absurd same (new there).ne
      · exact .inl
    rw [only, ← table.sizes, List.pairwise_append]
    constructor
    · intro ⟨rising, _⟩
      exact rising
    · intro rising
      refine ⟨rising, List.pairwise_singleton _ _, ?_⟩
      intro a member b last
      rw [List.mem_singleton.mp last]
      exact UInt32.le_trans (table.le_lastSize rising member) least

theorem occurs_snoc (table : Cleaned done s front) (same : x.2 = s.lastCdf) (q : ℚ) :
    (∃ e ∈ done ++ [x], e.2 = q) ↔ ∃ e ∈ done, e.2 = q := by
  constructor
  · intro ⟨e, member, at_q⟩
    rcases List.mem_append.mp member with earlier | new
    · exact ⟨e, earlier, at_q⟩
    · have ⟨y, there, at_last⟩ := (table.occurs s.lastCdf).mp ⟨_, table.mem_last, rfl⟩
      rw [List.mem_singleton.mp new] at at_q
      exact ⟨y, there, at_last.trans (same.symm.trans at_q)⟩
  · intro ⟨e, member, at_q⟩
    exact ⟨e, List.mem_append_left _ member, at_q⟩

/-- An entry of the last percentage that is no smaller than the last size. -/
theorem keep (table : Cleaned done s front) (same : x.2 = s.lastCdf) (least : s.lastSize ≤ x.1) :
    Cleaned (done ++ [x]) s front := by
  refine ⟨table.cleaned, table.percentages, ?_, ?_, ?_, ?_⟩
  · intro q
    rw [table.occurs_snoc same, table.occurs]
  · intro entry member
    have ⟨e, there, at_entry, le⟩ := table.held entry member
    exact ⟨e, List.mem_append_left _ there, at_entry, le⟩
  · intro entry member
    have ⟨p, at_most, ⟨e, there, at_p⟩, all⟩ := table.reached entry member
    refine ⟨p, at_most, ⟨e, List.mem_append_left _ there, at_p⟩, ?_⟩
    intro f where_f at_f
    rcases List.mem_append.mp where_f with earlier | new
    · exact all f earlier at_f
    · rw [List.mem_singleton.mp new] at at_f ⊢
      rw [table.cleaned] at member
      rcases List.mem_append.mp member with before | last
      · have less := table.before_last before
        rw [← same, at_f] at less
        exact absurd at_most (not_le.mpr less)
      · rw [List.mem_singleton.mp last]
        exact least
  · rw [table.sizes, not_iff_not, undercut_snoc fun e member => same ▸ table.le_last member]
    constructor
    · exact .inl
    · rintro (undercut | ⟨p, less, occurs, below, _⟩)
      · exact undercut
      · by_contra level
        have rising := table.sizes.mpr level
        have ⟨entry, member, at_p⟩ := (table.occurs p).mpr occurs
        have ⟨e, there, at_entry, le⟩ := table.held entry member
        have above := below e there (at_entry.trans at_p)
        have at_most := UInt32.le_trans le (table.le_lastSize rising member)
        exact absurd (UInt32.le_trans at_most least) (UInt32.not_le.mpr above)

/-- A smaller entry of the last percentage takes the last size back. -/
theorem lower (table : Cleaned done s front) (same : x.2 = s.lastCdf) (less : x.1 < s.lastSize)
    (sorted : ∀ e ∈ done, e.2 = x.2 → e.1 ≤ x.1) :
    Cleaned (done ++ [x]) ⟨front ++ [(x.1, s.lastCdf)], s.lastCdf, x.1⟩ front := by
  have order := table.percentages
  have ⟨y, y_there, y_last⟩ := (table.occurs s.lastCdf).mp ⟨_, table.mem_last, rfl⟩
  have y_small := sorted y y_there (y_last.trans same.symm)
  have ⟨p, at_most, ⟨e, there, at_p⟩, all⟩ := table.reached _ table.mem_last
  have earlier : p < s.lastCdf := by
    apply lt_of_le_of_ne at_most
    intro last
    have large := all y y_there (y_last.trans last.symm)
    exact absurd (UInt32.le_trans large y_small) (UInt32.not_le.mpr less)
  have other : x.2 ≠ p := by rw [same]; exact earlier.ne'
  have below {size : UInt32} (small : size ≤ x.1) : Below done p size := by
    intro f where_f at_f
    exact UInt32.lt_of_lt_of_le (UInt32.lt_of_le_of_lt small less) (all f where_f at_f)
  have in_front {entry : UInt32 × ℚ} (member : entry ∈ front) : entry ∈ s.cleaned := by
    rw [table.cleaned]
    exact List.mem_append_left _ member
  have undercut : Undercut (done ++ [x]) := by
    rw [undercut_snoc fun e member => same ▸ table.le_last member]
    exact .inr ⟨p, same ▸ earlier, ⟨e, there, at_p⟩, below (UInt32.le_refl x.1), y, y_there,
      y_last.trans same.symm, below y_small⟩
  refine ⟨rfl, ?_, ?_, ?_, ?_, ?_⟩
  · rw [table.cleaned, List.pairwise_append] at order
    refine List.pairwise_append.mpr ⟨order.1, List.pairwise_singleton _ _, ?_⟩
    intro a member b last
    rw [List.mem_singleton.mp last]
    exact table.before_last member
  · intro q
    rw [table.occurs_snoc same, ← table.occurs, table.cleaned]
    simp only [List.mem_append, List.mem_singleton, or_and_right, exists_or, exists_eq_left]
  · intro entry member
    rcases List.mem_append.mp member with kept | last
    · have ⟨e, there, at_entry, le⟩ := table.held entry (in_front kept)
      exact ⟨e, List.mem_append_left _ there, at_entry, le⟩
    · rw [List.mem_singleton.mp last]
      exact ⟨x, by simp, same, UInt32.le_refl x.1⟩
  · intro entry member
    rcases List.mem_append.mp member with kept | last
    · have ⟨p, at_most, ⟨e, there, at_p⟩, all⟩ := table.reached entry (in_front kept)
      have apart : x.2 ≠ p := by
        rw [same]
        exact (at_most.trans_lt (table.before_last kept)).ne'
      exact ⟨p, at_most, ⟨e, List.mem_append_left _ there, at_p⟩, (all_snoc apart _).mpr all⟩
    · rw [List.mem_singleton.mp last]
      refine ⟨p, earlier.le, ⟨e, List.mem_append_left _ there, at_p⟩, (all_snoc other _).mpr ?_⟩
      intro f where_f at_f
      exact UInt32.le_of_lt (below (UInt32.le_refl x.1) f where_f at_f)
  · refine ⟨?_, fun not_undercut => absurd undercut not_undercut⟩
    -- The entry of p is no smaller than the old last size, and stands before the last.
    intro rising
    have ⟨entry, member, entry_p⟩ := (table.occurs p).mpr ⟨e, there, at_p⟩
    have ⟨f, where_f, at_entry, le⟩ := table.held entry member
    have large := UInt32.le_trans (all f where_f (at_entry.trans entry_p)) le
    rw [table.cleaned] at member
    rcases List.mem_append.mp member with kept | last
    · have small := (List.pairwise_append.mp rising).2.2 entry kept _ (List.mem_singleton.mpr rfl)
      exact absurd (UInt32.le_trans large small) (UInt32.not_le.mpr less)
    · rw [List.mem_singleton.mp last] at entry_p
      exact absurd entry_p earlier.ne'

theorem first (x : UInt32 × ℚ) : Cleaned [x] ⟨[x], x.2, x.1⟩ [] := by
  refine ⟨rfl, List.pairwise_singleton _ _, fun q => Iff.rfl, ?_, ?_, ?_⟩
  · intro entry member
    exact ⟨entry, member, rfl, UInt32.le_refl entry.1⟩
  · intro entry member
    refine ⟨entry.2, le_rfl, ⟨entry, member, rfl⟩, ?_⟩
    intro e there _
    rw [List.mem_singleton.mp member, List.mem_singleton.mp there]
    exact UInt32.le_refl x.1
  · refine ⟨?_, fun _ => List.pairwise_singleton _ _⟩
    rintro _ ⟨p, q, _, _, two⟩
    have one := List.length_filter_le (fun e => decide (e.2 = q ∧ Below [x] p e.1)) [x]
    exact absurd (two.trans one) (by simp)

/-- One round of the loop. -/
theorem add (table : Cleaned done s front) (sorted : ∀ e ∈ done, entryLe e x) :
    ∃ front, Cleaned (done ++ [x]) (s.add x) front := by
  have ⟨y, y_there, y_last⟩ := (table.occurs s.lastCdf).mp ⟨_, table.mem_last, rfl⟩
  have in_order : ¬x.2 < s.lastCdf := not_lt.mpr (y_last ▸ entryLe_percentage (sorted y y_there))
  have some_cleaned : s.cleaned ≠ [] := List.ne_nil_of_mem table.mem_last
  rw [Cleaning.add, if_neg in_order, if_neg some_cleaned]
  by_cases same : x.2 = s.lastCdf
  · rw [if_pos same]
    by_cases less : x.1 < s.lastSize
    · have lowered := table.lower same less fun e member => entryLe_size (sorted e member)
      rw [if_pos less, table.cleaned, List.dropLast_concat, List.getLast?_concat]
      exact ⟨front, lowered⟩
    · rw [if_neg less]
      exact ⟨front, table.keep same (UInt32.not_lt.mp less)⟩
  · rw [if_neg same]
    have later := lt_of_le_of_ne (not_lt.mp in_order) (Ne.symm same)
    by_cases less : x.1 < s.lastSize
    · simp only [if_pos less]
      exact ⟨s.cleaned, table.extend later (UInt32.le_refl _) (UInt32.le_of_lt less) (.inl rfl)⟩
    · simp only [if_neg less]
      exact ⟨s.cleaned, table.extend later (UInt32.not_lt.mp less) (UInt32.le_refl _) (.inr rfl)⟩

end Cleaned

/-- The loop of LoadSizeCdf, by induction on the entries from the last. -/
theorem foldl_add {entries : SizeCdf} (some_entries : entries ≠ []) (least : ∀ e ∈ entries, 0 ≤ e.2)
    (sorted : entries.Pairwise entryLe) :
    ∃ front, Cleaned entries (entries.foldl Cleaning.add .new) front := by
  induction entries using List.reverseRecOn with
  | nil => exact absurd rfl some_entries
  | append_singleton done x ih =>
    have ⟨before, _, order⟩ := List.pairwise_append.mp sorted
    have from_done (e : UInt32 × ℚ) (member : e ∈ done) : entryLe e x :=
      order e member x (List.mem_singleton.mpr rfl)
    rw [List.foldl_append, List.foldl_cons, List.foldl_nil]
    by_cases first : done = []
    · have above : ¬x.2 < -1 := by
        have nonneg := least x (by simp)
        linarith
      have started : Cleaning.new.add x = ⟨[x], x.2, x.1⟩ := by
        simp [Cleaning.add, Cleaning.new, above]
      rw [first, List.foldl_nil, started]
      exact ⟨[], .first x⟩
    · have ⟨front, table⟩ :=
        ih first (fun e member => least e (List.mem_append_left _ member)) before
      exact table.add from_done

/- Both ends -/

section

variable {out : SizeCdf}

theorem addFront_spec (some_out : out ≠ []) (least : ∀ e ∈ out, 0 ≤ e.2)
    (order : out.Pairwise fun a b => a.2 < b.2) :
    ((addFront out).Pairwise fun a b => a.2 < b.2) ∧
    (addFront out).head?.map Prod.snd = some 0 ∧
    ((addFront out).Pairwise (fun a b => a.1 ≤ b.1) ↔ out.Pairwise fun a b => a.1 ≤ b.1) := by
  match out with
  | front :: rest =>
    have zero := least front List.mem_cons_self
    by_cases positive : 0 < front.2
    · have added : addFront (front :: rest) = (0, 0) :: front :: rest := if_pos positive
      rw [added]
      refine ⟨List.pairwise_cons.mpr ⟨?_, order⟩, rfl, fun rising => rising.of_cons,
        fun rising => List.pairwise_cons.mpr ⟨fun _ _ => UInt32.zero_le, rising⟩⟩
      intro entry member
      rcases List.mem_cons.mp member with rfl | later
      · exact positive
      · exact positive.trans (List.rel_of_pairwise_cons order later)
    · have same : addFront (front :: rest) = front :: rest := if_neg positive
      rw [same]
      exact ⟨order, congrArg some (le_antisymm (not_lt.mp positive) zero), Iff.rfl⟩

theorem mem_addFront {entry : UInt32 × ℚ} (member : entry ∈ addFront out) :
    entry = (0, 0) ∨ entry ∈ out := by
  unfold addFront at member
  cases first : out.head? with
  | none =>
    rw [first] at member
    exact .inr member
  | some front =>
    simp only [first] at member
    by_cases positive : 0 < front.2
    · rw [if_pos positive] at member
      exact List.mem_cons.mp member
    · rw [if_neg positive] at member
      exact .inr member

theorem addBack_spec (some_out : out ≠ []) (most : ∀ e ∈ out, e.2 ≤ 100)
    (order : out.Pairwise fun a b => a.2 < b.2) :
    ((addBack out).Pairwise fun a b => a.2 < b.2) ∧
    (addBack out).head? = out.head? ∧
    (addBack out).getLast?.map Prod.snd = some 100 ∧
    ((addBack out).Pairwise (fun a b => a.1 ≤ b.1) ↔ out.Pairwise fun a b => a.1 ≤ b.1) := by
  have ⟨back, last⟩ := Option.isSome_iff_exists.mp (List.getLast?_isSome.mpr some_out)
  have split := List.dropLast_append_getLast? back last
  have before {entry : UInt32 × ℚ} (member : entry ∈ out) :
      entry = back ∨ entry ∈ out.dropLast := by
    rw [← split] at member
    rcases List.mem_append.mp member with earlier | at_end
    · exact .inr earlier
    · exact .inl (List.mem_singleton.mp at_end)
  by_cases small : back.2 < 100
  · have added : addBack out = out ++ [(back.1, 100)] := by simp [addBack, last, small]
    rw [added, List.pairwise_append, List.pairwise_append]
    refine ⟨⟨order, List.pairwise_singleton _ _, ?_⟩, ?_, by simp, fun rising => rising.1,
      fun rising => ⟨rising, List.pairwise_singleton _ _, ?_⟩⟩
    · intro entry member b at_end
      rw [List.mem_singleton.mp at_end]
      rcases before member with rfl | earlier
      · exact small
      · rw [← split] at order
        exact ((List.pairwise_append.mp order).2.2 entry earlier back (by simp)).trans small
    · rw [List.head?_append_of_ne_nil _ some_out]
    · intro entry member b at_end
      rw [List.mem_singleton.mp at_end]
      rcases before member with rfl | earlier
      · exact UInt32.le_refl entry.1
      · rw [← split] at rising
        exact (List.pairwise_append.mp rising).2.2 entry earlier back (by simp)
  · have same : addBack out = out := by simp [addBack, last, small]
    have hundred := le_antisymm (most back (List.mem_of_getLast? last)) (not_lt.mp small)
    rw [same, last, Option.map_some, hundred]
    exact ⟨order, rfl, rfl, Iff.rfl⟩

end

theorem readEntry_within {outside : ℚ → UInt32} {line : Line} {entry : UInt32 × ℚ}
    (read : readEntry outside line = some entry) : 0 ≤ entry.2 ∧ entry.2 ≤ 100 := by
  unfold readEntry at read
  by_cases comment : isComment line = true
  · simp [comment] at read
  rw [if_neg comment] at read
  simp only at read
  generalize readDouble 0 (readDouble 0 line).rest = pct at read
  by_cases numbers : (readDouble 0 line).ok = true ∧ pct.ok = true
  · rw [if_pos numbers] at read
    obtain rfl := Option.some.inj read
    simp only
    constructor
    · split_ifs with large negative <;> linarith
    · split_ifs with large negative <;> linarith
  · simp [numbers] at read

/-- The table of a file is one of a distribution exactly if no percentage has two
entries that are both below every size of a smaller percentage. -/
theorem loadSizeCdf_isCdf {outside : ℚ → UInt32} {path : String} {lines : List Line} {out : SizeCdf}
    (loaded : loadSizeCdf outside path (some lines) = .ok out) :
    IsCdf out ↔ ¬Undercut (lines.filterMap (readEntry outside)) := by
  have within : ∀ e ∈ lines.filterMap (readEntry outside), 0 ≤ e.2 ∧ e.2 ≤ 100 := by
    intro e member
    have ⟨line, _, read⟩ := List.mem_filterMap.mp member
    exact readEntry_within read
  unfold loadSizeCdf at loaded
  simp only at loaded
  generalize lines.filterMap (readEntry outside) = entries at within loaded ⊢
  by_cases empty : entries = []
  · simp [empty] at loaded
  rw [if_neg empty] at loaded
  obtain rfl := Except.ok.inj loaded
  have perm := List.perm_insertionSort entryLe entries
  have same : Undercut (entries.insertionSort entryLe) ↔ Undercut entries :=
    ⟨Undercut.perm perm, Undercut.perm perm.symm⟩
  have some_sorted : entries.insertionSort entryLe ≠ [] := by
    intro nothing
    rw [nothing] at perm
    exact empty perm.nil_eq.symm
  have ⟨front, table⟩ := foldl_add some_sorted
    (fun e member => (within e (perm.mem_iff.mp member)).1)
      (List.pairwise_insertionSort entryLe entries)
  generalize (entries.insertionSort entryLe).foldl Cleaning.add .new = s at table ⊢
  have range : ∀ entry ∈ s.cleaned, 0 ≤ entry.2 ∧ entry.2 ≤ 100 := by
    intro entry member
    have ⟨e, there, at_entry⟩ := (table.occurs entry.2).mp ⟨entry, member, rfl⟩
    rw [← at_entry]
    exact within e (perm.mem_iff.mp there)
  have ⟨order, first, front_sizes⟩ := addFront_spec (List.ne_nil_of_mem table.mem_last)
    (fun entry member => (range entry member).1) table.percentages
  have some_front : addFront s.cleaned ≠ [] := by
    intro nothing
    rw [nothing] at first
    cases first
  have most : ∀ entry ∈ addFront s.cleaned, entry.2 ≤ 100 := by
    intro entry member
    rcases mem_addFront member with rfl | there
    · norm_num
    · exact (range entry there).2
  have ⟨percentages, head, last, back_sizes⟩ := addBack_spec some_front most order
  rw [← same, ← table.sizes, ← front_sizes, ← back_sizes]
  constructor
  · intro cdf
    exact cdf.sizes
  · intro sizes
    exact ⟨percentages, by rw [head, first], last, sizes⟩

/-- The size 100 at 10 percent, then two smaller ones at 20 percent. -/
def dippingFile : List Line :=
  [['1', '0', '0', ' ', '1', '0'], ['2', '0', ' ', '2', '0'], ['3', '0', ' ', '2', '0']]

/-- Two sizes at 10 percent, behind a larger one at 90. -/
def risingFile : List Line :=
  [['#'], ['3', '0', '0', ' ', '9', '0'], ['1', '0', '0', ' ', '1', '0'],
   ['2', '0', '.', '5', ' ', '1', '0']]

theorem loadSizeCdf_isCdf_rising :
    loadSizeCdf (fun _ => 0) "sizes" (some risingFile) =
      .ok [(0, 0), (21, 10), (300, 90), (300, 100)] ∧
    IsCdf [(0, 0), (21, 10), (300, 90), (300, 100)] := by
  have loaded : loadSizeCdf (fun _ => 0) "sizes" (some risingFile) =
      .ok [(0, 0), (21, 10), (300, 90), (300, 100)] := by
    decide +kernel
  have entries : risingFile.filterMap (readEntry fun _ => 0) =
      [(300, 90), (100, 10), (21, 10)] := by
    decide +kernel
  refine ⟨loaded, (loadSizeCdf_isCdf loaded).mpr ?_⟩
  rw [entries]
  decide +kernel

/-- The sizes of the table go down from 100 to 30. -/
theorem loadSizeCdf_isCdf_dipping :
    ∃ out, loadSizeCdf (fun _ => 0) "sizes" (some dippingFile) = .ok out ∧ ¬IsCdf out := by
  refine ⟨[(0, 0), (100, 10), (30, 20), (30, 100)], by decide +kernel, ?_⟩
  intro cdf
  have sizes := cdf.sizes
  revert sizes
  decide +kernel

end QbbNet
