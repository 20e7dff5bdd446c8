import Mathlib.Order.Lattice.Nat

set_option autoImplicit false

/- Shortest walks along weighted links, and how a scan that settles one vertex after
another finds their costs and all the links that they begin with. -/
namespace QbbNet

/-- The links that leave each vertex, the vertex that a link leads to, and its cost. -/
structure LinkGraph (V L : Type) where
  links : V → List L
  target : L → V
  metric : L → Nat

namespace LinkGraph

variable {V L : Type} {g : LinkGraph V L}

variable (g) in
/-- Each step of a walk adds the cost of its link. -/
inductive Walk (u : V) : Nat → V → Prop
  | nil : Walk u 0 u
  | snoc {n : Nat} {v : V} {l : L} : Walk u n v → l ∈ g.links v →
      Walk u (n + g.metric l) (g.target l)

variable (g) in
def Dist (u v : V) (d : Nat) : Prop := IsLeast {n | g.Walk u n v} d

variable (g) in
/-- The link begins a walk that is shortest, from its own end too. -/
def FirstHop (u v : V) (l : L) : Prop :=
  l ∈ g.links u ∧ ∃ d, g.Dist (g.target l) v d ∧ g.Dist u v (g.metric l + d)

variable (g) in
def Positive : Prop := ∀ v, ∀ l ∈ g.links v, 0 < g.metric l

variable {u v w r : V} {l x : L} {n m d : Nat}

theorem Walk.trans (first : g.Walk u n v) (second : g.Walk v m w) : g.Walk u (n + m) w := by
  induction second with
  | nil => exact first
  | snoc _ leaves extended =>
    rw [← Nat.add_assoc]
    exact extended.snoc leaves

theorem Walk.cons (leaves : l ∈ g.links u) (rest : g.Walk (g.target l) n v) :
    g.Walk u (g.metric l + n) v := by
  have one : g.Walk u (0 + g.metric l) (g.target l) := Walk.nil.snoc leaves
  rw [Nat.zero_add] at one
  exact one.trans rest

/-- A walk is empty or has a first link. -/
theorem Walk.first (walk : g.Walk u n v) :
    (n = 0 ∧ v = u) ∨ ∃ l ∈ g.links u, ∃ k, g.Walk (g.target l) k v ∧ n = g.metric l + k := by
  induction walk with
  | nil => exact Or.inl ⟨rfl, rfl⟩
  | @snoc n v l walk leaves split =>
    rcases split with ⟨empty, here⟩ | ⟨first, first_leaves, k, rest, cost⟩
    · subst here
      exact Or.inr ⟨l, leaves, 0, Walk.nil, by omega⟩
    · exact Or.inr ⟨first, first_leaves, k + g.metric l, rest.snoc leaves, by omega⟩

theorem Walk.positive (positive : g.Positive) (walk : g.Walk u n v) (moved : v ≠ u) : 0 < n := by
  rcases walk.first with ⟨_, here⟩ | ⟨l, leaves, k, _, cost⟩
  · exact absurd here moved
  · have some_cost := positive u l leaves
    omega

/-- The other graph has each link too, with the same ends and cost. -/
def Within {L' : Type} (g : LinkGraph V L) (h : LinkGraph V L') : Prop :=
  ∀ v, ∀ l ∈ g.links v, ∃ l' ∈ h.links v, h.target l' = g.target l ∧ h.metric l' = g.metric l

theorem Walk.within {L' : Type} {h : LinkGraph V L'} (within : g.Within h) (walk : g.Walk u n v) :
    h.Walk u n v := by
  induction walk with
  | nil => exact Walk.nil
  | @snoc n v l _ leaves extended =>
    obtain ⟨l', leaves', target, metric⟩ := within v l leaves
    rw [← target, ← metric]
    exact extended.snoc leaves'

theorem dist_congr {L' : Type} {h : LinkGraph V L'} (sub : g.Within h) (sup : h.Within g) :
    g.Dist u v d ↔ h.Dist u v d := by
  have same : {n | g.Walk u n v} = {n | h.Walk u n v} :=
    Set.ext fun n => ⟨fun walk => walk.within sub, fun walk => walk.within sup⟩
  unfold Dist
  rw [same]

variable (g u) in
theorem dist_self : g.Dist u u 0 := ⟨Walk.nil, fun n _ => Nat.zero_le n⟩

theorem Dist.unique {e : Nat} (one : g.Dist u v d) (other : g.Dist u v e) : d = e :=
  IsLeast.unique one other

theorem Dist.le (shortest : g.Dist u v d) (walk : g.Walk u n v) : d ≤ n := shortest.2 walk

/-- What can be reached is at some distance. -/
theorem Walk.exists_dist (walk : g.Walk u n v) : ∃ d ≤ n, g.Dist u v d :=
  ⟨_, Nat.sInf_le walk, Nat.sInf_mem ⟨n, walk⟩, fun _ other => Nat.sInf_le other⟩

/-- A shortest walk is shortest up to the start of its last link. -/
theorem Dist.before (walk : g.Walk u n v) (leaves : l ∈ g.links v)
    (shortest : g.Dist u (g.target l) (n + g.metric l)) : g.Dist u v n := by
  refine ⟨walk, fun m other => ?_⟩
  have le := shortest.le (other.snoc leaves)
  omega

/-- A shortest walk is shortest from the end of its first link. -/
theorem Dist.after (leaves : l ∈ g.links u) (rest : g.Walk (g.target l) n v)
    (shortest : g.Dist u v (g.metric l + n)) : g.Dist (g.target l) v n := by
  refine ⟨rest, fun m other => ?_⟩
  have le := shortest.le (other.cons leaves)
  omega

theorem exists_firstHop (shortest : g.Dist u v d) (moved : v ≠ u) : ∃ x, g.FirstHop u v x := by
  rcases shortest.1.first with ⟨_, here⟩ | ⟨l, leaves, k, rest, cost⟩
  · exact absurd here moved
  · rw [cost] at shortest
    exact ⟨l, leaves, k, Dist.after leaves rest shortest, shortest⟩

variable (g) in
/-- The first hops that a walk from `u` has if its last link is `l`, out of `v`. -/
def Via (u v : V) (l x : L) : Prop := (v = u ∧ x = l) ∨ (v ≠ u ∧ g.FirstHop u v x)

variable (l) in
theorem exists_via (shortest : g.Dist u v d) : ∃ x, g.Via u v l x := by
  by_cases here : v = u
  · exact ⟨l, Or.inl ⟨here, rfl⟩⟩
  · have ⟨x, first⟩ := exists_firstHop shortest here
    exact ⟨x, Or.inr ⟨here, first⟩⟩

/-- The first hops to a vertex are those by the last links of its shortest walks. -/
theorem firstHop_iff_via (positive : g.Positive) (moved : w ≠ u) :
    g.FirstHop u w x ↔ ∃ v l d, l ∈ g.links v ∧ g.target l = w ∧ g.Dist u v d ∧
      g.Dist u w (d + g.metric l) ∧ g.Via u v l x := by
  constructor
  · rintro ⟨leaves, n, rest, shortest⟩
    cases rest.1 with
    | nil =>
      refine ⟨u, x, 0, leaves, rfl, dist_self g u, ?_, Or.inl ⟨rfl, rfl⟩⟩
      rwa [Nat.add_comm]
    | @snoc n v l walk last =>
      rw [← Nat.add_assoc] at shortest
      have before := Dist.before (walk.cons leaves) last shortest
      have away : v ≠ u := by
        rintro rfl
        have zero := before.le Walk.nil
        have some_cost := positive v x leaves
        omega
      exact ⟨v, l, _, last, rfl, before, shortest,
        Or.inr ⟨away, leaves, n, Dist.after leaves walk before, before⟩⟩
  · rintro ⟨v, l, d, last, rfl, to_v, shortest, ⟨rfl, rfl⟩ | ⟨_, leaves, n, rest, through⟩⟩
    · have zero : d = 0 := to_v.unique (dist_self g v)
      subst zero
      rw [Nat.zero_add] at shortest
      exact ⟨last, 0, dist_self g _, shortest⟩
    · have same : d = g.metric x + n := to_v.unique through
      subst same
      rw [Nat.add_assoc] at shortest
      exact ⟨leaves, _, Dist.after leaves (rest.1.snoc last) shortest, shortest⟩

/- Scanning links: a link that has been scanned offers its target a cost and the
first hops by it. -/

/-- Offers of a cost and a first hop to each vertex. -/
def Offers (V L : Type) : Type := V → Nat → L → Prop

variable (g r) in
/-- What the scanned links offer, each with the vertex that it leaves. -/
def offers (scanned : Set (V × L)) : Offers V L := fun w c x =>
  ∃ v l d, (v, l) ∈ scanned ∧ g.target l = w ∧ g.Dist r v d ∧ c = d + g.metric l ∧ g.Via r v l x

/-- The least cost that is offered, with the first hops it is offered by. -/
structure Offers.Best (offers : Offers V L) (w : V) (d : Nat) (hops : Set L) : Prop where
  least : IsLeast {c | ∃ x, offers w c x} d
  hops_eq : hops = {x | offers w d x}

/-- One more offer to `w`. -/
def Offers.add (offers : Offers V L) (w : V) (c : Nat) (hops : Set L) : Offers V L :=
  fun u n x => offers u n x ∨ (u = w ∧ n = c ∧ x ∈ hops)

theorem offers_insert {scanned : Set (V × L)} (to_v : g.Dist r v d) :
    g.offers r (insert (v, l) scanned) =
      (g.offers r scanned).add (g.target l) (d + g.metric l) {x | g.Via r v l x} := by
  funext w c x
  apply propext
  constructor
  · rintro ⟨v', l', d', mem, target, to_v', cost, via⟩
    rcases mem with same | mem
    · cases same
      rw [to_v'.unique to_v] at cost
      exact Or.inr ⟨target.symm, cost, via⟩
    · exact Or.inl ⟨v', l', d', mem, target, to_v', cost, via⟩
  · rintro (⟨v', l', d', mem, rest⟩ | ⟨target, cost, via⟩)
    · exact ⟨v', l', d', Set.mem_insert_of_mem _ mem, rest⟩
    · exact ⟨v, l, d, Set.mem_insert _ _, target.symm, to_v, cost, via⟩

namespace Offers

variable {offers : Offers V L} {c : Nat} {hops more : Set L}

/-- An offer to one vertex is nothing to the others. -/
theorem best_add_other (other : u ≠ w) :
    (offers.add w c more).Best u d hops ↔ offers.Best u d hops := by
  have same (n : Nat) (x : L) : offers.add w c more u n x ↔ offers u n x :=
    ⟨fun offered => offered.resolve_right fun here => other here.1, Or.inl⟩
  constructor
  · rintro ⟨least, hops_eq⟩
    simp only [same] at least hops_eq
    exact ⟨least, hops_eq⟩
  · rintro ⟨least, hops_eq⟩
    constructor <;> simpa only [same]

theorem best_add_first (fresh : ∀ n x, ¬ offers w n x) (some_hop : more.Nonempty) :
    (offers.add w c more).Best w c more := by
  obtain ⟨x, mem⟩ := some_hop
  refine ⟨⟨⟨x, Or.inr ⟨rfl, rfl, mem⟩⟩, ?_⟩, ?_⟩
  · rintro n ⟨y, known | ⟨_, rfl, _⟩⟩
    · exact absurd known (fresh n y)
    · exact Nat.le_refl n
  · ext y
    exact ⟨fun member => Or.inr ⟨rfl, rfl, member⟩,
      fun offered => (offered.resolve_left (fresh c y)).2.2⟩

theorem best_add_dearer (best : offers.Best w d hops) (dearer : d < c) :
    (offers.add w c more).Best w d hops := by
  obtain ⟨⟨⟨x, offered⟩, least⟩, hops_eq⟩ := best
  refine ⟨⟨⟨x, Or.inl offered⟩, ?_⟩, ?_⟩
  · rintro n ⟨y, known | ⟨_, rfl, _⟩⟩
    · exact least ⟨y, known⟩
    · omega
  · rw [hops_eq]
    ext y
    exact ⟨Or.inl, fun either => either.resolve_right fun new => by omega⟩

theorem best_add_equal (best : offers.Best w d hops) :
    (offers.add w d more).Best w d (hops ∪ more) := by
  obtain ⟨⟨⟨x, offered⟩, least⟩, hops_eq⟩ := best
  refine ⟨⟨⟨x, Or.inl offered⟩, ?_⟩, ?_⟩
  · rintro n ⟨y, known | ⟨_, rfl, _⟩⟩
    · exact least ⟨y, known⟩
    · exact Nat.le_refl n
  · rw [hops_eq]
    ext y
    exact ⟨Or.imp_right fun member => ⟨rfl, rfl, member⟩, Or.imp_right fun new => new.2.2⟩

theorem best_add_cheaper (best : offers.Best w d hops) (cheaper : c < d)
    (some_hop : more.Nonempty) : (offers.add w c more).Best w c more := by
  obtain ⟨⟨_, least⟩, _⟩ := best
  have dearer {n : Nat} {y : L} (known : offers w n y) : d ≤ n := least ⟨y, known⟩
  obtain ⟨x, mem⟩ := some_hop
  refine ⟨⟨⟨x, Or.inr ⟨rfl, rfl, mem⟩⟩, ?_⟩, ?_⟩
  · rintro n ⟨y, known | ⟨_, rfl, _⟩⟩
    · have := dearer known
      omega
    · exact Nat.le_refl n
  · ext y
    refine ⟨fun member => Or.inr ⟨rfl, rfl, member⟩, fun offered => ?_⟩
    rcases offered with known | ⟨_, _, member⟩
    · have := dearer known
      omega
    · exact member

end Offers

variable (g) in
/-- The links that leave the settled vertices. -/
def linksOf (settled : Set V) : Set (V × L) := {p | p.1 ∈ settled ∧ p.2 ∈ g.links p.1}

variable {settled : Set V}

/-- A walk that ends outside the settled vertices costs at least what one of their
links offers to one outside. -/
theorem Walk.leaves_settled (root : r ∈ settled) (known : ∀ v ∈ settled, ∃ d, g.Dist r v d)
    (walk : g.Walk r n w) (outside : w ∉ settled) :
    ∃ u ∉ settled, ∃ c x, g.offers r (g.linksOf settled) u c x ∧ c ≤ n := by
  induction walk with
  | nil => exact absurd root outside
  | @snoc n v l walk leaves earlier =>
    by_cases inside : v ∈ settled
    · obtain ⟨d, to_v⟩ := known v inside
      obtain ⟨x, via⟩ := exists_via l to_v
      exact ⟨g.target l, outside, _, x, ⟨v, l, d, ⟨inside, leaves⟩, rfl, to_v, rfl, via⟩,
        Nat.add_le_add_right (to_v.le walk) _⟩
    · obtain ⟨u, out, c, x, offered, le⟩ := earlier inside
      exact ⟨u, out, c, x, offered, by omega⟩

/-- The cheapest offer to a vertex that is not settled is the cost of its shortest
walks, and is offered by all the first hops of these. -/
theorem settle (positive : g.Positive) (root : r ∈ settled)
    (known : ∀ v ∈ settled, ∃ d, g.Dist r v d) (outside : w ∉ settled) {hops : Set L}
    (best : (g.offers r (g.linksOf settled)).Best w d hops)
    (cheapest : ∀ u ∉ settled, ∀ c x, g.offers r (g.linksOf settled) u c x → d ≤ c) :
    g.Dist r w d ∧ hops = {x | g.FirstHop r w x} := by
  have moved : w ≠ r := fun same => outside (same ▸ root)
  have lower {n : Nat} {z : V} (walk : g.Walk r n z) (out : z ∉ settled) : d ≤ n := by
    obtain ⟨u, out_u, c, x, offered, le⟩ := walk.leaves_settled root known out
    exact Nat.le_trans (cheapest u out_u c x offered) le
  have dist : g.Dist r w d := by
    obtain ⟨x, v, l, dv, ⟨_, leaves⟩, target, to_v, cost, _⟩ := best.least.1
    subst target cost
    exact ⟨to_v.1.snoc leaves, fun n walk => lower walk outside⟩
  refine ⟨dist, ?_⟩
  rw [best.hops_eq]
  ext x
  rw [Set.mem_ofPred_eq, Set.mem_ofPred_eq, firstHop_iff_via positive moved]
  constructor
  · rintro ⟨v, l, dv, ⟨_, leaves⟩, target, to_v, cost, via⟩
    exact ⟨v, l, dv, leaves, target, to_v, cost ▸ dist, via⟩
  · rintro ⟨v, l, dv, leaves, target, to_v, shortest, via⟩
    have cost : d = dv + g.metric l := dist.unique shortest
    have inside : v ∈ settled := by
      by_contra out
      have le := lower to_v.1 out
      have some_cost := positive v l leaves
      omega
    exact ⟨v, l, dv, ⟨inside, leaves⟩, target, to_v, cost, via⟩

/-- Once nothing is offered outside, all that can be reached is settled. -/
theorem Walk.inside (root : r ∈ settled) (known : ∀ v ∈ settled, ∃ d, g.Dist r v d)
    (done : ∀ u ∉ settled, ∀ c x, ¬ g.offers r (g.linksOf settled) u c x)
    (walk : g.Walk r n w) : w ∈ settled := by
  by_contra outside
  obtain ⟨u, out, c, x, offered, _⟩ := walk.leaves_settled root known outside
  exact done u out c x offered

theorem linksOf_insert (v : V) (settled : Set V) :
    g.linksOf (insert v settled) = g.linksOf settled ∪ {p | p.1 = v ∧ p.2 ∈ g.links v} := by
  ext ⟨u, l⟩
  constructor
  · rintro ⟨rfl | mem, leaves⟩
    · exact Or.inr ⟨rfl, leaves⟩
    · exact Or.inl ⟨mem, leaves⟩
  · rintro (⟨mem, leaves⟩ | ⟨rfl, leaves⟩)
    · exact ⟨Or.inr mem, leaves⟩
    · exact ⟨Or.inl rfl, leaves⟩

end LinkGraph

end QbbNet
