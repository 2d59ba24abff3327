import Mathlib.Data.List.Basic
import CodeSurvey.Cache.Basic

/-!
# What the steps of a cache can do

A look-up and a store, each in one statement that later proofs cite. A cache is *usable* when its
size is a number of at least one and its time to live a number; a time is a number that has a double
precision form. With these, neither step can fail.

* `get_spec`, `put_spec`: what is in the cache after a step was there before, or was just stored.
* `get_ok`, `put_ok`: the steps of a usable cache succeed at every time.
-/

namespace CodeSurvey

/-- A time that a clock can show: a number of double precision, or a whole one that fits. -/
def Json.IsTime (j : Json) : Prop :=
  ∃ a, j.amount? = some a ∧ a.toDouble?.isSome

theorem Json.isTime_zero : (Json.int 0).IsTime :=
  ⟨.whole 0, rfl, by decide +kernel⟩

/-- Two times have a difference, and it is a number. -/
theorem Json.minus_ok {a b : Json} (ha : a.IsTime) (hb : b.IsTime) :
    ∃ d x, a.minus b = .ok d ∧ d.amount? = some x := by
  obtain ⟨x, hx, hx'⟩ := ha
  obtain ⟨y, hy, hy'⟩ := hb
  obtain ⟨u, hu⟩ := Option.isSome_iff_exists.1 hx'
  obtain ⟨v, hv⟩ := Option.isSome_iff_exists.1 hy'
  have hsub : ∃ z, x.sub? y = some z := by
    unfold Amount.sub?
    split
    · exact ⟨_, rfl⟩
    · rw [hu, hv]; exact ⟨_, rfl⟩
  obtain ⟨z, hz⟩ := hsub
  have hamount : (Json.ofAmount z).amount? = some z := by cases z <;> rfl
  refine ⟨.ofAmount z, z, ?_, hamount⟩
  simp only [Json.minus, hx, hy, hz]

/-- Numbers can be compared. -/
theorem Json.compare_ok (r : Relation) {a b : Json} {x y : Amount} (ha : a.amount? = some x)
    (hb : b.amount? = some y) : Json.compare r a b = .ok (r.holds x y) := by
  cases a <;> cases b <;> simp_all [Json.compare, Json.comparePlain, Json.amount?]

/-- What is at least one is more than zero. -/
theorem Amount.not_atMost_zero {x : Amount} (h : (Amount.whole 1).atMost x = true) :
    x.atMost (.whole 0) = false := by
  cases x with
  | whole n => simp only [Amount.atMost, decide_eq_true_eq, decide_eq_false_iff_not] at h ⊢; omega
  | real d =>
    simp only [Amount.atMost, Amount.less, Amount.same, Amount.exact] at h ⊢
    cases d with
    | finite neg b =>
      -- both comparisons are made at the scale of `b`
      have hone : Double.scaledBy (Double.places b) false ⟨1, 0⟩ = Int.pow 2 (Double.places b) := by
        simp [Double.scaledBy]
      have hzero : Double.scaledBy (Double.places b) false ⟨0, 0⟩ = 0 := by
        simp [Double.scaledBy]
      have hpos : 0 < Int.pow 2 (Double.places b) := Int.pow_pos (by decide)
      have hp : Double.places ⟨1, 0⟩ = 0 ∧ Double.places ⟨0, 0⟩ = 0 := ⟨rfl, rfl⟩
      simp only [Double.less, Double.same, Int.natAbs_one, Int.natAbs_zero, hp, Nat.zero_max,
        Nat.max_zero, Bool.or_eq_true, decide_eq_true_eq, beq_iff_eq, Bool.or_eq_false_iff,
        decide_eq_false_iff_not, beq_eq_false_iff_ne] at h ⊢
      rw [show decide ((1 : Int) < 0) = false from rfl, hone] at h
      rw [show decide ((0 : Int) < 0) = false from rfl, hzero]
      omega
    | infinite neg => cases neg <;> simp_all [Double.less, Double.same]
    | notNumber => simp [Double.less, Double.same] at h

/-- A document that is at least one is a number, and more than zero. -/
theorem Json.of_atLeast_one {j : Json} (h : Json.compare .atLeast j (.int 1) = .ok true) :
    ∃ x, j.amount? = some x ∧ x.atMost (.whole 0) = false := by
  cases hx : j.amount? with
  | none => cases j <;> simp_all [Json.compare, Json.comparePlain, Json.amount?]
  | some x =>
    rw [Json.compare_ok .atLeast hx (y := .whole 1) rfl] at h
    exact ⟨x, rfl, Amount.not_atMost_zero (by simpa [Relation.holds] using h)⟩

namespace Cache

variable {κ α : Type} [DecidableEq κ] {c d : Cache κ α} {now : Json} {key : κ} {value : α}

/-- A cache whose limits are of use: a size of at least one, and a time to live that is a number. -/
structure Usable (c : Cache κ α) : Prop where
  maxSize : Json.compare .atLeast c.maxSize (.int 1) = .ok true
  timeToLive : c.timeToLive.amount?.isSome

/-- The limits of a cache stay as they are. -/
def SameLimits (c d : Cache κ α) : Prop :=
  d.maxSize = c.maxSize ∧ d.timeToLive = c.timeToLive

omit [DecidableEq κ] in
theorem Usable.of_sameLimits (h : c.Usable) (hl : SameLimits c d) : d.Usable :=
  ⟨by rw [hl.1]; exact h.maxSize, by rw [hl.2]; exact h.timeToLive⟩

theorem entry?_spec {e : CacheEntry κ α} (h : c.entry? key = some e) :
    e ∈ c.entries ∧ e.key = key :=
  ⟨List.mem_of_find?_eq_some h, by simpa using List.find?_some h⟩

/-- **What a look-up can do.** It keeps the limits and brings in no entry; what it gives out is the
value of an entry of the key. -/
theorem get_spec {found : Option α} (h : c.get now key = .ok (found, d)) :
    SameLimits c d ∧ (∀ e ∈ d.entries, e ∈ c.entries) ∧
      ∀ v, found = some v → ∃ e ∈ c.entries, e.key = key ∧ e.value = v := by
  unfold get at h
  split at h
  · obtain ⟨rfl, rfl⟩ := Prod.mk.inj (Except.ok.inj h)
    exact ⟨⟨rfl, rfl⟩, fun e he => he, by simp⟩
  · rename_i e hentry
    obtain ⟨hmem, hkey⟩ := entry?_spec hentry
    split at h
    · simp at h
    · obtain ⟨rfl, rfl⟩ := Prod.mk.inj (Except.ok.inj h)
      exact ⟨⟨rfl, rfl⟩, fun x hx => List.mem_of_mem_filter hx, by simp⟩
    · obtain ⟨rfl, rfl⟩ := Prod.mk.inj (Except.ok.inj h)
      refine ⟨⟨rfl, rfl⟩, ?_, fun v hv => ⟨e, hmem, hkey, Option.some.inj hv⟩⟩
      intro x hx
      rcases List.mem_append.1 hx with hx | hx
      · exact List.mem_of_mem_filter hx
      · rw [List.mem_singleton.1 hx]; exact hmem

/-- A look-up succeeds if the limits are of use and all times are times. -/
theorem get_ok (hc : c.Usable) (hnow : now.IsTime) (hstored : ∀ e ∈ c.entries, e.storedAt.IsTime)
    (key : κ) : ∃ r, c.get now key = .ok r := by
  unfold get
  split
  · exact ⟨_, rfl⟩
  · rename_i e hentry
    obtain ⟨age, x, hage, hx⟩ := Json.minus_ok hnow (hstored e (entry?_spec hentry).1)
    obtain ⟨y, hy⟩ := Option.isSome_iff_exists.1 hc.timeToLive
    have hexp : c.expired now e = .ok (Relation.more.holds x y) := by
      unfold expired
      rw [hage]
      exact Json.compare_ok .more hx hy
    rw [hexp]
    cases Relation.more.holds x y <;> exact ⟨_, rfl⟩

theorem mem_store {entries : List (CacheEntry κ α)} {e : CacheEntry κ α}
    (h : e ∈ store entries now key value) : e ∈ entries ∨ e = ⟨key, value, now⟩ := by
  unfold store at h
  rcases List.mem_append.1 h with h | h
  · exact Or.inl (List.mem_of_mem_filter h)
  · exact Or.inr (List.mem_singleton.1 h)

/-- **What a store can do.** It keeps the limits, and every entry was there or is the new one. -/
theorem put_spec (h : c.put now key value = .ok d) :
    SameLimits c d ∧ ∀ e ∈ d.entries, e ∈ c.entries ∨ e = ⟨key, value, now⟩ := by
  unfold put at h
  split at h
  · simp at h
  · split at h
    · split at h
      · simp at h
      · rename_i x rest hentries
        obtain rfl := Except.ok.inj h
        refine ⟨⟨rfl, rfl⟩, fun e he => ?_⟩
        rcases mem_store he with he | he
        · exact Or.inl (by rw [hentries]; exact List.mem_cons_of_mem _ he)
        · exact Or.inr he
    · obtain rfl := Except.ok.inj h
      exact ⟨⟨rfl, rfl⟩, fun e he => mem_store he⟩

/-- A store succeeds if the limits are of use: an empty cache is not full. -/
theorem put_ok (hc : c.Usable) (now : Json) (key : κ) (value : α) :
    ∃ d, c.put now key value = .ok d := by
  obtain ⟨x, hx, hpos⟩ := Json.of_atLeast_one hc.maxSize
  have hfull : c.full = .ok (x.atMost (.whole c.size)) :=
    Json.compare_ok .atLeast (a := .nat c.size) (x := .whole c.size) rfl hx
  unfold put
  rw [hfull]
  simp only
  split
  · rename_i hcond
    split
    · rename_i hnil
      have hsize : c.size = 0 := by rw [size, hnil]; rfl
      rw [hsize] at hcond
      simp [hpos] at hcond
    · exact ⟨_, rfl⟩
  · exact ⟨_, rfl⟩

end Cache

end CodeSurvey
