import FluxGate.LoadBalancer
import Mathlib.Algebra.Group.Fin.Basic
import Mathlib.Algebra.Group.Units.Equiv
import Mathlib.Data.List.FinRange

/-!
# Which backend `Next` selects

`LeastConnection.Next` scans the pool from a `MaxInt64` sentinel with a strict signed `<`. It
takes the first active backend with the fewest connections and raises its count by one, unless
every active backend already has `MaxInt64` connections; then it returns nil.

`RoundRobin.Next` indexes the active backends by its raised `uint64` counter. While the active
backends stay the same, `K` calls of a run of interface calls return each of the `K` once,
unless the counter wraps past `2^64 - 1` during them and `K` does not divide `2^64`: the
positions then restart at the first active backend.
-/

namespace FluxGate

/-- Position `i` holds `b`, an active backend with the fewest connections of the active
backends, and every active backend before it has more. -/
def FirstLeast (backends : List Backend) (i : Nat) (b : Backend) : Prop :=
  backends[i]? = some b ∧ b.active = true ∧
    (∀ b' ∈ backends, b'.active = true → b.connections.toInt ≤ b'.connections.toInt) ∧
    ∀ j < i, ∀ b', backends[j]? = some b' → b'.active = true → b.connections.toInt < b'.connections.toInt

namespace LeastConnection

theorem firstLeast_cons {c b : Backend} {rest : List Backend} {j : Nat} (h : FirstLeast rest j b)
    (hc : c.active = true → b.connections.toInt < c.connections.toInt) :
    FirstLeast (c :: rest) (j + 1) b := by
  obtain ⟨hj, hb, hmin, hfirst⟩ := h
  refine ⟨by rwa [List.getElem?_cons_succ], hb, fun b' hb' ha => ?_, fun k hk b' hk' ha => ?_⟩
  · rcases List.mem_cons.mp hb' with rfl | hb'
    · exact le_of_lt (hc ha)
    · exact hmin b' hb' ha
  · cases k with
    | zero => obtain rfl := Option.some.inj (List.getElem?_cons_zero.symm.trans hk'); exact hc ha
    | succ k => exact hfirst k (by omega) b' (by rwa [List.getElem?_cons_succ] at hk') ha

theorem firstLeast_head {c : Backend} {rest : List Backend} (hc : c.active = true)
    (hmin : ∀ b' ∈ rest, b'.active = true → c.connections.toInt ≤ b'.connections.toInt) :
    FirstLeast (c :: rest) 0 c := by
  refine ⟨List.getElem?_cons_zero, hc, fun b' hb' ha => ?_, fun j hj => absurd hj (Nat.not_lt_zero j)⟩
  rcases List.mem_cons.mp hb' with rfl | hb'
  · exact le_rfl
  · exact hmin b' hb' ha

theorem scan_cases (l : List Backend) (i : Nat) (acc : Option Nat × GoInt) :
    (scan l i acc = acc ∧ ∀ b ∈ l, b.active = true → acc.2.toInt ≤ b.connections.toInt) ∨
    ∃ j b, scan l i acc = (some (i + j), b.connections) ∧ FirstLeast l j b ∧
      b.connections.toInt < acc.2.toInt := by
  induction l generalizing i acc with
  | nil => exact .inl ⟨rfl, by simp⟩
  | cons c rest ih =>
    rw [scan]
    by_cases hc : c.active = true ∧ c.connections.toInt < acc.2.toInt
    · rw [if_pos (by simpa [BitVec.slt] using hc)]
      rcases ih (i + 1) (some i, c.connections) with ⟨he, hall⟩ | ⟨j, b, he, hfl, hlt⟩
      · exact .inr ⟨0, c, he, firstLeast_head hc.1 hall, hc.2⟩
      · exact .inr ⟨j + 1, b, by rw [he, Nat.add_right_comm, Nat.add_assoc], firstLeast_cons hfl fun _ => hlt,
          lt_trans hlt hc.2⟩
    · rw [if_neg (by simpa [BitVec.slt] using hc)]
      have hle : c.active = true → acc.2.toInt ≤ c.connections.toInt :=
        fun ha => not_lt.mp fun hlt => hc ⟨ha, hlt⟩
      rcases ih (i + 1) acc with ⟨he, hall⟩ | ⟨j, b, he, hfl, hlt⟩
      · refine .inl ⟨he, fun b' hb' ha => ?_⟩
        rcases List.mem_cons.mp hb' with rfl | hb'
        · exact hle ha
        · exact hall b' hb' ha
      · exact .inr ⟨j + 1, b, by rw [he, Nat.add_right_comm, Nat.add_assoc],
          firstLeast_cons hfl fun ha => lt_of_lt_of_le hlt (hle ha), hlt⟩

theorem toInt_maxInt64 : maxInt64.toInt = 2 ^ 63 - 1 := by decide

theorem toInt_add_one {x : GoInt} (h : x.toInt < 2 ^ 63 - 1) : (x + 1).toInt = x.toInt + 1 := by
  have h1 : (1 : GoInt).toInt = 1 := by decide
  have hx := x.toInt_inRange
  unfold GoInt.InRange at hx
  rw [BitVec.toInt_add, h1, Int.bmod_def]
  split <;> omega

theorem next_cases (backends : List Backend) :
    ((next backends).1 = none ∧ (next backends).2 = backends ∧
      ∀ b ∈ backends, b.active = true → b.connections = maxInt64) ∨
    ∃ i b, FirstLeast backends i b ∧ (next backends).1 = some { b with connections := b.connections + 1 } ∧
      (b.connections + 1).toInt = b.connections.toInt + 1 ∧
      (next backends).2 = backends.set i { b with connections := b.connections + 1 } := by
  rcases scan_cases backends 0 (none, maxInt64) with ⟨he, hall⟩ | ⟨i, b, he, hfl, hlt⟩
  · refine .inl ⟨by simp [next, he], by simp [next, he], fun b hb ha => ?_⟩
    have hb := hall b hb ha
    have := b.connections.toInt_inRange
    unfold GoInt.InRange at this
    rw [toInt_maxInt64] at hb
    exact BitVec.eq_of_toInt_eq (by rw [toInt_maxInt64]; omega)
  · rw [toInt_maxInt64] at hlt
    have hi := (List.getElem?_eq_some_iff.mp hfl.1).1
    refine .inr ⟨i, b, hfl, ?_, toInt_add_one hlt, List.ext_getElem? fun j => ?_⟩
    · simp [next, he, List.getElem?_modify, hfl.1]
    · simp only [next, he, Nat.zero_add, List.getElem?_modify, List.getElem?_set, if_pos hi]
      split
      · next hij => subst hij; simp [hfl.1]
      · cases backends[j]? <;> rfl

/-- `Next` on a pool whose one backend, active as `Add` leaves it, already has `MaxInt64`
connections. -/
theorem next_nil_at_maxInt64 :
    (newLeastConnection.add ⟨"http://h:1", 1, false, maxInt64⟩).backends = [⟨"http://h:1", 1, true, maxInt64⟩] ∧
      (newLeastConnection.add ⟨"http://h:1", 1, false, maxInt64⟩).next.1 = none :=
  ⟨rfl, by decide⟩

/-- The active backends' counts lie between `c` and `c + 1`. -/
def Balanced (backends : List Backend) (c : Int) : Prop :=
  ∀ b ∈ backends, b.active = true → c ≤ b.connections.toInt ∧ b.connections.toInt ≤ c + 1

theorem next_balanced {backends : List Backend} {c : Int} (h : Balanced backends c) :
    Balanced (next backends).2 c ∨ Balanced (next backends).2 (c + 1) := by
  rcases next_cases backends with ⟨-, he, -⟩ | ⟨i, b, hfl, -, hadd, he⟩
  · exact .inl (by rw [he]; exact h)
  · have hb := h b (List.getElem?_mem hfl.1) hfl.2.1
    have hmin := hfl.2.2.1
    rw [he]
    by_cases hk : b.connections.toInt = c
    · refine .inl fun x hx ha => ?_
      rcases List.mem_or_eq_of_mem_set hx with hx | rfl
      · exact h x hx ha
      · simp only [hadd]; omega
    · refine .inr fun x hx ha => ?_
      rcases List.mem_or_eq_of_mem_set hx with hx | rfl
      · have := h x hx ha
        have := hmin x hx ha
        omega
      · simp only [hadd]; omega

/-- The connections the active backends hold between them. -/
def activeConnections : List Backend → Int
  | [] => 0
  | b :: bs => (if b.active then b.connections.toInt else 0) + activeConnections bs

theorem activeConnections_set {l : List Backend} {i : Nat} {b : Backend} (hb : l[i]? = some b)
    (b' : Backend) (ha : b'.active = b.active) :
    activeConnections (l.set i b') =
      activeConnections l + if b.active then b'.connections.toInt - b.connections.toInt else 0 := by
  induction l generalizing i with
  | nil => simp at hb
  | cons c l ih =>
    cases i with
    | zero =>
      obtain rfl : c = b := by simpa using hb
      simp only [List.set_cons_zero, activeConnections, ha]
      split <;> omega
    | succ i =>
      rw [List.set_cons_succ, activeConnections, activeConnections, ih (by simpa using hb)]
      omega

theorem next_raises_one {backends : List Backend} {c : Int} (h : Balanced backends c)
    (ha : ∃ b ∈ backends, b.active = true) (hc : c + 1 < 2 ^ 63 - 1) :
    (Balanced (next backends).2 c ∨ Balanced (next backends).2 (c + 1)) ∧
      activeConnections (next backends).2 = activeConnections backends + 1 ∧
      (next backends).2.map (·.active) = backends.map (·.active) := by
  obtain ⟨b₀, hb₀, ha₀⟩ := ha
  rcases next_cases backends with ⟨-, -, hall⟩ | ⟨i, b, hfl, -, hadd, he⟩
  · have := h b₀ hb₀ ha₀
    rw [hall b₀ hb₀ ha₀, toInt_maxInt64] at this
    omega
  · refine ⟨next_balanced h, ?_, ?_⟩
    · rw [he, activeConnections_set hfl.1 { b with connections := b.connections + 1 } rfl, if_pos hfl.2.1, hadd]
      omega
    · refine List.ext_getElem? fun j => ?_
      rw [he, List.getElem?_map, List.getElem?_map, List.getElem?_set]
      split
      · next hij => subst hij; simp [hfl.1, (List.getElem?_eq_some_iff.mp hfl.1).1]
      · rfl

/-- Nothing in the repository calls `ReleaseConnection`, so a count only grows. From counts
within one of each other, as a pool of fresh backends has, `k` calls of `Next` that stay below
`MaxInt64` each raise one active backend's count by one: the active backends hold `k` more
connections, their counts still within one of each other, at a level between `c` and `c + k`.
Least connection spreads the calls evenly. -/
theorem next_spreads_evenly {backends : List Backend} {c : Int} (h : Balanced backends c)
    (ha : ∃ b ∈ backends, b.active = true) (k : Nat) (hk : c + k < 2 ^ 63 - 1) :
    ∃ c', c ≤ c' ∧ c' ≤ c + k ∧ Balanced ((fun bs => (next bs).2)^[k] backends) c' ∧
      activeConnections ((fun bs => (next bs).2)^[k] backends) = activeConnections backends + k := by
  suffices ∃ c', c ≤ c' ∧ c' ≤ c + k ∧ Balanced ((fun bs => (next bs).2)^[k] backends) c' ∧
      activeConnections ((fun bs => (next bs).2)^[k] backends) = activeConnections backends + k ∧
      ((fun bs => (next bs).2)^[k] backends).map (·.active) = backends.map (·.active) from
    by obtain ⟨c', h₁, h₂, h₃, h₄, -⟩ := this; exact ⟨c', h₁, h₂, h₃, h₄⟩
  induction k with
  | zero => exact ⟨c, le_rfl, by omega, h, by simp, rfl⟩
  | succ k ih =>
    obtain ⟨c', hc, hc', hb, htot, hact⟩ := ih (by omega)
    have ha' : ∃ b ∈ (fun bs => (next bs).2)^[k] backends, b.active = true := by
      obtain ⟨b, hb, hab⟩ := ha
      obtain ⟨b', hb', he⟩ := List.mem_map.mp (hact ▸ List.mem_map_of_mem (fun x : Backend => x.active) hb)
      exact ⟨b', hb', he.trans hab⟩
    obtain ⟨hbal, hone, hmap⟩ := next_raises_one hb ha' (by omega)
    rw [Function.iterate_succ_apply', hone, htot, hmap, hact]
    rcases hbal with hb' | hb'
    · exact ⟨c', hc, by omega, hb', by omega, rfl⟩
    · exact ⟨c' + 1, by omega, by omega, hb', by omega, rfl⟩

theorem next_spreads_evenly_three :
    Balanced [⟨"http://h:1", 1, true, 0⟩, ⟨"http://h:2", 1, true, 0⟩, ⟨"http://h:3", 1, true, 0⟩] 0 ∧
      (∃ b ∈ [(⟨"http://h:1", 1, true, 0⟩ : Backend), ⟨"http://h:2", 1, true, 0⟩, ⟨"http://h:3", 1, true, 0⟩],
        b.active = true) ∧
      (0 : Int) + ((5 : Nat) : Int) < 2 ^ 63 - 1 ∧
      ∃ c' : Int, 0 ≤ c' ∧ c' ≤ 0 + ((5 : Nat) : Int) ∧ Balanced ((fun bs => (next bs).2)^[5]
        [⟨"http://h:1", 1, true, 0⟩, ⟨"http://h:2", 1, true, 0⟩, ⟨"http://h:3", 1, true, 0⟩]) c' ∧
        activeConnections ((fun bs => (next bs).2)^[5]
          [⟨"http://h:1", 1, true, 0⟩, ⟨"http://h:2", 1, true, 0⟩, ⟨"http://h:3", 1, true, 0⟩]) =
          activeConnections [⟨"http://h:1", 1, true, 0⟩, ⟨"http://h:2", 1, true, 0⟩, ⟨"http://h:3", 1, true, 0⟩] +
            ((5 : Nat) : Int) :=
  have h : Balanced [⟨"http://h:1", 1, true, 0⟩, ⟨"http://h:2", 1, true, 0⟩, ⟨"http://h:3", 1, true, 0⟩] 0 := by
    intro b hb _
    simp only [List.mem_cons, List.mem_nil_iff, or_false] at hb
    rcases hb with rfl | rfl | rfl <;> decide
  have ha : ∃ b ∈ [(⟨"http://h:1", 1, true, 0⟩ : Backend), ⟨"http://h:2", 1, true, 0⟩, ⟨"http://h:3", 1, true, 0⟩],
      b.active = true := ⟨_, List.mem_cons_self _ _, rfl⟩
  have hk : (0 : Int) + ((5 : Nat) : Int) < 2 ^ 63 - 1 := by decide
  ⟨h, ha, hk, next_spreads_evenly h ha 5 hk⟩

end LeastConnection

namespace RoundRobin

/-- `Next` reads only the active backends: its first check is implied by the second. -/
theorem next_eq (backends : List Backend) (current : UInt64) :
    next backends current =
      if (backends.filter (·.active)).length = 0 then (none, current) else
        ((backends.filter (·.active))[((current + 1) % (backends.filter (·.active)).length.toUInt64).toNat]?,
          current + 1) := by
  by_cases h : backends.length = 0
  · simp [next, List.length_eq_zero.mp h]
  · simp only [next, h, if_false]

theorem next_congr {backends backends' : List Backend}
    (h : backends.filter (·.active) = backends'.filter (·.active)) (current : UInt64) :
    next backends current = next backends' current := by
  rw [next_eq, next_eq, h]

/-- `Next()` called `k` times on a pool nothing else changes: what each call returns. -/
def picks (backends : List Backend) : Nat → UInt64 → List (Option Backend)
  | 0, _ => []
  | k + 1, current => (next backends current).1 :: picks backends k (next backends current).2

theorem picks_congr {backends backends' : List Backend}
    (h : backends.filter (·.active) = backends'.filter (·.active)) (k : Nat) (current : UInt64) :
    picks backends k current = picks backends' k current := by
  induction k generalizing current with
  | zero => rfl
  | succ k ih => rw [picks, picks, next_congr h, ih]

section Fairness

variable {backends : List Backend}

theorem picks_eq_mod (h : 0 < (backends.filter (·.active)).length) (k : Nat) (current : UInt64) :
    picks backends k current = List.ofFn fun j : Fin k =>
      (backends.filter (·.active))[(current.toNat + 1 + j) % 2 ^ 64 %
        ((backends.filter (·.active)).length % 2 ^ 64)]? := by
  induction k generalizing current with
  | zero => rfl
  | succ k ih =>
    rw [picks, next_eq, if_neg (Nat.pos_iff_ne_zero.mp h), ih, List.ofFn_succ]
    refine congrArg₂ _ rfl (congrArg List.ofFn (funext fun j => ?_))
    have hc : (current + 1).toNat = (current.toNat + 1) % 2 ^ 64 := rfl
    simp only [hc, Fin.val_succ, Nat.mod_add_mod, Nat.add_assoc, Nat.add_comm 1]

private theorem rotate_perm (A : List Backend) (h : 0 < A.length) (s : Nat) :
    (List.ofFn fun j : Fin A.length => A[(s + j) % A.length]?).Perm (A.map some) := by
  haveI : NeZero A.length := ⟨Nat.pos_iff_ne_zero.mp h⟩
  have hrot : (List.ofFn fun j : Fin A.length => A[(s + j) % A.length]?) =
      List.ofFn ((fun i : Fin A.length => some A[i]) ∘
        Equiv.addRight (⟨s % A.length, Nat.mod_lt _ h⟩ : Fin A.length)) := by
    refine congrArg List.ofFn (funext fun j => ?_)
    simp only [Function.comp, Equiv.coe_addRight, Fin.getElem_fin, Fin.val_add, Nat.add_mod_mod]
    rw [List.getElem?_eq_getElem (Nat.mod_lt _ h), Nat.add_comm s]
  rw [hrot]
  exact List.ofFn_getElem_eq_map A some ▸ Equiv.Perm.ofFn_comp_perm _ _

theorem picks_perm_of (current : UInt64)
    (hw : current.toNat + (backends.filter (·.active)).length < 2 ^ 64 ∨
      (backends.filter (·.active)).length ∣ 2 ^ 64) :
    (picks backends (backends.filter (·.active)).length current).Perm
      ((backends.filter (·.active)).map some) := by
  rcases Nat.eq_zero_or_pos (backends.filter (·.active)).length with h0 | h
  · rw [h0, List.length_eq_zero.mp h0]
    exact .nil
  rw [picks_eq_mod h]
  set A := backends.filter (·.active)
  have hidx : ∀ j : Fin A.length,
      (current.toNat + 1 + j) % 2 ^ 64 % (A.length % 2 ^ 64) = (current.toNat + 1 + j) % A.length := by
    intro j
    have := j.isLt
    rcases hw with hw | hw
    · rw [Nat.mod_eq_of_lt (by omega : current.toNat + 1 + j < 2 ^ 64),
        Nat.mod_eq_of_lt (by omega : A.length < 2 ^ 64)]
    · rcases (Nat.le_of_dvd (Nat.two_pow_pos 64) hw).lt_or_eq with hlt | heq
      · rw [Nat.mod_eq_of_lt hlt, Nat.mod_mod_of_dvd _ hw]
      · rw [show A.length % 2 ^ 64 = 0 by rw [heq, Nat.mod_self], Nat.mod_zero]
        exact congrArg (_ % ·) heq.symm
  simp only [hidx]
  exact rotate_perm A h _

end Fairness

end RoundRobin

namespace LoadBalancer

private theorem self_mem_scanl {α β : Type} (f : β → α → β) (b : β) (l : List α) : b ∈ l.scanl f b := by
  cases l <;> simp [List.scanl_cons]

theorem call_roundRobin {backends : List Backend} {current : UInt64} {m : Method} (hm : m ≠ .next) :
    ∃ backends', (roundRobin backends current).call m = .roundRobin backends' current := by
  cases m <;> first | exact absurd rfl hm | exact ⟨_, rfl⟩

theorem returns_eq_picks {backends : List Backend} {current : UInt64} {ms : List Method}
    (hfix : ∀ lb ∈ ms.scanl call (.roundRobin backends current),
      lb.backends.filter (·.active) = backends.filter (·.active)) :
    (roundRobin backends current).returns ms = RoundRobin.picks backends (ms.count .next) current := by
  induction ms generalizing backends current with
  | nil => rfl
  | cons m ms ih =>
    rw [List.scanl_cons] at hfix
    have htail := fun lb h => hfix lb (List.mem_append_right _ h)
    by_cases hm : m = .next
    · subst hm
      rw [returns, if_pos rfl, List.count_cons_self, RoundRobin.picks, ← ih htail]
      rfl
    · obtain ⟨backends', he⟩ : ∃ bs, (roundRobin backends current).call m = .roundRobin bs current :=
        call_roundRobin hm
      rw [he] at htail
      have hbs : backends'.filter (·.active) = backends.filter (·.active) := htail _ (self_mem_scanl _ _ _)
      rw [returns, if_neg hm, List.nil_append, he, ih fun lb h => (htail lb h).trans hbs.symm,
        List.count_cons_of_ne (Ne.symm hm), RoundRobin.picks_congr hbs]

theorem Reachable.roundRobin_counter {backends : List Backend} {current : UInt64}
    (h : Reachable (.roundRobin backends current)) (ha : 0 < (backends.filter (·.active)).length)
    (n : UInt64) : Reachable (.roundRobin backends n) := by
  have hstep : ∀ c, Reachable (.roundRobin backends c) → Reachable (.roundRobin backends (c + 1)) := by
    intro c hc
    have := hc.call .next
    rwa [LoadBalancer.call, LoadBalancer.next, RoundRobin.next_eq,
      if_neg (Nat.pos_iff_ne_zero.mp ha)] at this
  have hc := current.toNat_lt_size
  have hn := n.toNat_lt_size
  have hs : UInt64.size = 2 ^ 64 := rfl
  have hk : ∀ k : Nat, Reachable (.roundRobin backends (UInt64.ofNat (current.toNat + k))) := by
    intro k
    induction k with
    | zero =>
      have he : UInt64.ofNat (current.toNat + 0) = current :=
        UInt64.toNat.inj (show (current.toNat + 0) % 2 ^ 64 = current.toNat by omega)
      rwa [he]
    | succ k ih =>
      have he : UInt64.ofNat (current.toNat + k) + 1 = UInt64.ofNat (current.toNat + (k + 1)) :=
        UInt64.toNat.inj (show ((current.toNat + k) % 2 ^ 64 + 1) % 2 ^ 64 = (current.toNat + (k + 1)) % 2 ^ 64 by
          omega)
      exact he ▸ hstep _ ih
  have he : UInt64.ofNat (current.toNat + (n.toNat + 2 ^ 64 - current.toNat)) = n :=
    UInt64.toNat.inj (show (current.toNat + (n.toNat + 2 ^ 64 - current.toNat)) % 2 ^ 64 = n.toNat by omega)
  exact he ▸ hk _

end LoadBalancer

namespace RoundRobin

open LoadBalancer

/-- Round robin over every pool and every counter: `Next` returns nil exactly when no backend is
active, and otherwise an active backend of the pool. While the active backends stay the same,
`K` of them, a run of interface calls with `K` calls of `Next` returns each once, when the
counter does not wrap during the run or `K` divides `2^64`. -/
theorem next_rotates (backends : List Backend) (current : UInt64) :
    ((next backends current).1 = none ↔ ∀ b ∈ backends, b.active = false) ∧
    (∀ b, (next backends current).1 = some b → b ∈ backends ∧ b.active = true) ∧
    ∀ ms : List Method,
      (∀ lb ∈ ms.scanl call (.roundRobin backends current),
        lb.backends.filter (·.active) = backends.filter (·.active)) →
      ms.count .next = (backends.filter (·.active)).length →
      (current.toNat + (backends.filter (·.active)).length < 2 ^ 64 ∨
        (backends.filter (·.active)).length ∣ 2 ^ 64) →
      ((roundRobin backends current).returns ms).Perm ((backends.filter (·.active)).map some) := by
  refine ⟨next_eq_none_iff backends current, fun _ => mem_of_next, fun ms hfix hcount hw => ?_⟩
  rw [returns_eq_picks hfix, hcount]
  exact picks_perm_of current hw

theorem next_rotates_three :
    let bs : List Backend := [⟨"http://h:1", 1, true, 0⟩, ⟨"http://h:2", 1, true, 0⟩, ⟨"http://h:3", 1, true, 0⟩]
    let ms : List Method := [.next, .add ⟨"http://h:4", 1, false, 0⟩, .next, .next]
    (∀ lb ∈ ms.scanl call (.roundRobin bs 0), lb.backends.filter (·.active) = bs.filter (·.active)) ∧
      ms.count .next = (bs.filter (·.active)).length ∧
      ((0 : UInt64).toNat + (bs.filter (·.active)).length < 2 ^ 64 ∨ (bs.filter (·.active)).length ∣ 2 ^ 64) ∧
      ((roundRobin bs 0).returns ms).Perm ((bs.filter (·.active)).map some) :=
  have hfix : ∀ lb ∈ ([.next, .add ⟨"http://h:4", 1, false, 0⟩, .next, .next] : List Method).scanl call
      (.roundRobin [⟨"http://h:1", 1, true, 0⟩, ⟨"http://h:2", 1, true, 0⟩, ⟨"http://h:3", 1, true, 0⟩] 0),
      lb.backends.filter (·.active) =
        [⟨"http://h:1", 1, true, 0⟩, ⟨"http://h:2", 1, true, 0⟩, ⟨"http://h:3", 1, true, 0⟩].filter (·.active) := by
    decide
  ⟨hfix, rfl, .inl (by decide), (next_rotates _ 0).2.2 _ hfix rfl (.inl (by decide))⟩

/-- Three active backends, the counter two short of the wrap, which `Next` reaches: three
calls in a row return the first backend twice and never the third. -/
theorem rotation_repeats_across_wrap :
    let bs : List Backend := [⟨"http://h:1", 1, true, 0⟩, ⟨"http://h:2", 1, true, 0⟩, ⟨"http://h:3", 1, true, 0⟩]
    Reachable (.roundRobin bs 18446744073709551614) ∧
      (∀ lb ∈ ([.next, .next, .next] : List Method).scanl call (.roundRobin bs 18446744073709551614),
        lb.backends.filter (·.active) = bs.filter (·.active)) ∧
      (roundRobin bs 18446744073709551614).returns [.next, .next, .next] =
        [some ⟨"http://h:1", 1, true, 0⟩, some ⟨"http://h:1", 1, true, 0⟩, some ⟨"http://h:2", 1, true, 0⟩] :=
  ⟨((((Reachable.roundRobin.call (.add ⟨"http://h:1", 1, true, 0⟩)).call (.add ⟨"http://h:2", 1, true, 0⟩)).call
      (.add ⟨"http://h:3", 1, true, 0⟩)).roundRobin_counter (by decide) _), by decide, by decide⟩

end RoundRobin

end FluxGate
