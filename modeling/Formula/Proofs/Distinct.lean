import Mathlib.Data.List.Forall2
import Formula.Library.Text
import Formula.Proofs.Equality

/-!
The distinct values of a list, in the order in which they are first seen.

* `Keeps`: which places of a list are kept beside values seen before, and why the others are not;
* `distinct_keeps`: what `distinct` leaves out is equal to what it has seen or kept before;
* `distinct_apart`: no two of the values it keeps are equal;
* `distinct_of_apart`: and where no two values are, it keeps them all;
* `union_distinct`: hence `UNION` keeps the first of equal values, and nothing is left to do for it
  a second time.
-/

namespace Formula.Library

/-! ## Places -/

/-- The values `kept` stand at `places` in a list, in the order of the list. Every other value of
the list is strictly equal to one seen before the list, or to one that is kept at an earlier
place. -/
structure Keeps (seen vs : List Value) (places : List Nat) (kept : List Value) : Prop where
  ascending : places.Pairwise (· < ·)
  standing : List.Forall₂ (fun p v => vs[p]? = some v) places kept
  dropped : ∀ p v, vs[p]? = some v → p ∉ places →
    (∃ w ∈ seen, w.strictEq v = true) ∨
      ∃ q ∈ places, q < p ∧ ∃ w, vs[q]? = some w ∧ w.strictEq v = true

variable {seen vs kept : List Value} {places : List Nat} {v : Value}

theorem ascending_succ (h : places.Pairwise (· < ·)) : (places.map (· + 1)).Pairwise (· < ·) :=
  List.pairwise_map.mpr (h.imp Nat.succ_lt_succ)

theorem standing_succ (h : List.Forall₂ (fun p v => vs[p]? = some v) places kept) :
    List.Forall₂ (fun p w => (v :: vs)[p]? = some w) (places.map (· + 1)) kept :=
  List.forall₂_map_left_iff.mpr h

/-- A value in front that has been seen is dropped. -/
theorem Keeps.drop (hseen : ∃ w ∈ seen, w.strictEq v = true) (h : Keeps seen vs places kept) :
    Keeps seen (v :: vs) (places.map (· + 1)) kept where
  ascending := ascending_succ h.ascending
  standing := standing_succ h.standing
  dropped := by
    rintro (_ | p) u hu hp
    · cases hu
      exact .inl hseen
    · rcases h.dropped p u hu (fun hmem => hp (List.mem_map_of_mem hmem)) with hw | ⟨q, hq, hlt, hw⟩
      · exact .inl hw
      · exact .inr ⟨q + 1, List.mem_map_of_mem hq, Nat.succ_lt_succ hlt, hw⟩

/-- A value in front that is kept has been seen by those behind it. -/
theorem Keeps.keep (h : Keeps (seen ++ [v]) vs places kept) :
    Keeps seen (v :: vs) (0 :: places.map (· + 1)) (v :: kept) where
  ascending := by
    refine List.pairwise_cons.mpr ⟨?_, ascending_succ h.ascending⟩
    simp
  standing := .cons rfl (standing_succ h.standing)
  dropped := by
    rintro (_ | p) u hu hp
    · exact absurd List.mem_cons_self hp
    · have hp : p ∉ places := fun hmem => hp (.tail _ (List.mem_map_of_mem hmem))
      rcases h.dropped p u hu hp with ⟨w, hw, heq⟩ | ⟨q, hq, hlt, hw⟩
      · rcases List.mem_append.mp hw with hw | hw
        · exact .inl ⟨w, hw, heq⟩
        · obtain rfl := List.mem_singleton.mp hw
          exact .inr ⟨0, List.mem_cons_self, Nat.succ_pos p, w, rfl, heq⟩
      · exact .inr ⟨q + 1, .tail _ (List.mem_map_of_mem hq), Nat.succ_lt_succ hlt, hw⟩

/-- What is left out is equal to a value seen or kept before. -/
theorem distinct_keeps (seen vs : List Value) :
    ∃ places, Keeps seen vs places (distinct seen vs) := by
  fun_induction distinct seen vs with
  | case1 seen => exact ⟨[], .nil, .nil, nofun⟩
  | case2 seen v vs hseen ih =>
    obtain ⟨places, h⟩ := ih
    exact ⟨_, h.drop (List.any_eq_true.mp hseen)⟩
  | case3 seen v vs _ ih =>
    obtain ⟨places, h⟩ := ih
    exact ⟨_, h.keep⟩

/-! ## Values apart -/

def Apart (vs : List Value) : Prop := vs.Pairwise fun v w => v.strictEq w = false

/-- What is kept is apart from what has been seen. -/
theorem distinct_apart {seen : List Value} (hseen : Apart seen) (vs : List Value) :
    Apart (seen ++ distinct seen vs) := by
  fun_induction distinct seen vs with
  | case1 seen => rwa [List.append_nil]
  | case2 seen v vs _ ih => exact ih hseen
  | case3 seen v vs hnew ih =>
    have hv : ∀ w ∈ seen, w.strictEq v = false := fun w hw =>
      Bool.eq_false_iff.mpr fun heq => hnew (List.any_eq_true.mpr ⟨w, hw, heq⟩)
    have hmore : Apart (seen ++ [v]) :=
      List.pairwise_append.mpr ⟨hseen, List.pairwise_singleton _ _, by simpa using hv⟩
    have h := ih hmore
    rwa [List.append_assoc, List.singleton_append] at h

/-- Values that are apart from one another and from what has been seen are all kept. -/
theorem distinct_of_apart {seen vs : List Value} (h : Apart (seen ++ vs)) :
    distinct seen vs = vs := by
  fun_induction distinct seen vs with
  | case1 seen => rfl
  | case2 seen v vs hseen ih =>
    obtain ⟨w, hw, heq⟩ := List.any_eq_true.mp hseen
    rw [(List.pairwise_append.mp h).2.2 w hw v List.mem_cons_self] at heq
    cases heq
  | case3 seen v vs _ ih =>
    rw [ih (by rwa [List.append_assoc, List.singleton_append])]

/-! ## Unions -/

/-- The values that a union is made of: the items of an array, if that is the only argument, or else
the arguments. -/
def united : List Value → List Value
  | [.array items] => items
  | args => args

theorem union_eq : ∀ args : List Value, union args = .ok (.array (distinct [] (united args)))
  | [] => rfl
  | [v] | v :: _ :: _ => by cases v <;> rfl

/-- `UNION` keeps values at places of its source, in order, no two of them strictly equal. Every
value of the source at another place is strictly equal to one that is kept at an earlier place; and
the union of the values that are kept is these values again. -/
theorem union_distinct (args : List Value) :
    ∃ (places : List Nat) (kept : List Value),
      union args = .ok (.array kept) ∧
      places.Pairwise (· < ·) ∧
      List.Forall₂ (fun p v => (united args)[p]? = some v) places kept ∧
      kept.Pairwise (fun v w => v.strictEq w = false ∧ w.strictEq v = false) ∧
      (∀ p v, (united args)[p]? = some v → p ∉ places →
        ∃ q ∈ places, q < p ∧ ∃ w, (united args)[q]? = some w ∧ w.strictEq v = true) ∧
      union [.array kept] = .ok (.array kept) := by
  obtain ⟨places, hkeeps⟩ := distinct_keeps [] (united args)
  have hapart : Apart (distinct [] (united args)) := distinct_apart .nil (united args)
  refine ⟨places, distinct [] (united args), union_eq args, hkeeps.ascending, hkeeps.standing,
    hapart.imp fun h => ⟨h, (Value.strictEq_comm _ _).trans h⟩, fun p v hv hp => ?_, ?_⟩
  · rcases hkeeps.dropped p v hv hp with ⟨w, hw, -⟩ | hbefore
    · cases hw
    · exact hbefore
  · rw [union_eq]
    exact congrArg (fun vs => Except.ok (Value.array vs)) (distinct_of_apart hapart)

/-- NaN is kept every time, and of equal arrays the first. -/
example :
    union [.number Number.nan, .array [.number 0], .number Number.nan, .array [.number (-0)]] =
      .ok (.array [.number Number.nan, .array [.number 0], .number Number.nan]) := by rfl

end Formula.Library
