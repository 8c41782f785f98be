import FluxGate.Proxy.Locking

/-!
# No other state is stuck

The methods take `Server.mu` before `TLSManager.mu`, never the other way round. Holding
`TLSManager.mu`, a goroutine's next call releases it. Holding `Server.mu` alone, its next call
releases it or takes `TLSManager.mu`. The one exception is the read lock `notifyListeners` takes
on the paths where `TLSManager.UpdateConfig` would return nil. Without such a reload no state is
stuck. The goroutine that holds `TLSManager.mu` can always make its next call. If no one holds
it, a goroutine that holds `Server.mu` can. If no one holds anything, every lock call goes
through.
-/

namespace FluxGate.Proxy.Locking

/-- The next call after `done` keeps the lock order. Holding `TLSManager.mu`, it is its release.
Holding `Server.mu` alone, it is its release or an acquire of `TLSManager.mu`. -/
def NextInOrder (done : List LockOp) (next : Option LockOp) : Prop :=
  (0 < writeHeld .tls done → next = some (.unlock .tls)) ∧
  (0 < readHeld .tls done → next = some (.runlock .tls)) ∧
  (writeHeld .tls done = 0 → readHeld .tls done = 0 →
    (0 < writeHeld .server done →
      next = some (.unlock .server) ∨ next = some (.lock .tls) ∨ next = some (.rlock .tls)) ∧
    (0 < readHeld .server done →
      next = some (.runlock .server) ∨ next = some (.lock .tls) ∨ next = some (.rlock .tls)))

instance (done : List LockOp) (next : Option LockOp) : Decidable (NextInOrder done next) := by
  unfold NextInOrder; infer_instance

/-- Every call of `ops` keeps the lock order, and at the end nothing is held. -/
def Ordered (ops : List LockOp) : Prop :=
  ∀ k ∈ List.range (ops.length + 1), NextInOrder (ops.take k) ops[k]?

instance (ops : List LockOp) : Decidable (Ordered ops) := by
  unfold Ordered; infer_instance

theorem Ordered.next {g : Goroutine} (h : Ordered g.ops) : NextInOrder g.done g.next? := by
  by_cases hk : g.pc ≤ g.ops.length
  · exact h g.pc (List.mem_range.mpr (by omega))
  · have := h g.ops.length (List.mem_range.mpr (by omega))
    rw [List.take_length, List.getElem?_eq_none le_rfl] at this
    rwa [Goroutine.done, Goroutine.next?, List.take_of_length_le (by omega),
      List.getElem?_eq_none (by omega)]

theorem nextInOrder_append {pre : List LockOp}
    (hbal : ∀ m, pre.count (.unlock m) = pre.count (.lock m) ∧
      pre.count (.runlock m) = pre.count (.rlock m)) {done : List LockOp} {next : Option LockOp} :
    NextInOrder (pre ++ done) next ↔ NextInOrder done next := by
  simp only [NextInOrder, (held_append_of_balanced hbal _ _).1, (held_append_of_balanced hbal _ _).2]

theorem ordered_append {pre rest : List LockOp} (hpre : Ordered pre)
    (hbal : ∀ m, pre.count (.unlock m) = pre.count (.lock m) ∧
      pre.count (.runlock m) = pre.count (.rlock m)) (hrest : Ordered rest) : Ordered (pre ++ rest) := by
  intro k hk
  rw [List.mem_range, List.length_append] at hk
  by_cases hkp : k < pre.length
  · rw [List.take_append_of_le_length hkp.le, List.getElem?_append_left hkp]
    exact hpre k (List.mem_range.mpr (by omega))
  · rw [List.take_append_eq_append_take, List.take_of_length_le (by omega),
      List.getElem?_append_right (by omega), nextInOrder_append hbal]
    exact hrest (k - pre.length) (List.mem_range.mpr (by omega))

/-- Every method keeps the lock order, save `Server.UpdateConfig` on the paths where
`TLSManager.UpdateConfig` would return nil. -/
theorem Call.ordered (c : Call) : Ordered c.ops ∨ ∃ cfg loads, c = .updateConfig cfg loads ∧
    (certificateFiles cfg.tls = none ∨ loads = true) := by
  cases c with
  | handleRequest routed proxied cached =>
    exact .inl (by cases routed <;> cases proxied <;> cases cached <;> decide)
  | onServiceChange services =>
    refine .inl ?_
    induction services with
    | zero => decide
    | succ n ih => exact ordered_append (by decide) (fun m => by cases m <;> decide) ih
  | getLoadBalancer => exact .inl (by decide)
  | updateConfig cfg loads =>
    cases h : certificateFiles cfg.tls with
    | none => exact .inr ⟨cfg, loads, rfl, .inl h⟩
    | some t =>
      cases loads with
      | true => exact .inr ⟨cfg, true, rfl, .inr rfl⟩
      | false =>
        refine .inl ?_
        simp only [Call.ops, Server.updateConfigOps, TLSManager.updateConfigOps, h, Bool.false_eq_true,
          if_false]
        decide
  | start => exact .inl (by decide)
  | handleHealthCheck get => exact .inl (by cases get <;> decide)

theorem Reachable.calls {s : State} (hs : Reachable s) : ∀ g ∈ s.goroutines, ∃ c : Call, g.ops = c.ops := by
  induction hs with
  | refl => intro g hg; cases hg
  | tail _ hst ih =>
    cases hst with
    | start c =>
      intro g hg
      rcases List.mem_append.mp hg with hg | hg
      · exact ih g hg
      · rw [List.mem_singleton.mp hg]; exact ⟨c, rfl⟩
    | advance i h =>
      obtain ⟨g, op, w, hg, -, -, rfl⟩ := State.advance_eq_some.mp h
      intro g' hg'
      rcases List.mem_or_eq_of_mem_set hg' with hg' | rfl
      · exact ih g' hg'
      · exact ih g (List.getElem?_mem hg)

theorem total_eq_zero {α : Type} {f : α → Nat} {l : List α} (h : ∀ a ∈ l, f a = 0) : total f l = 0 := by
  induction l with
  | nil => rfl
  | cons a l ih =>
    rw [total, h a (List.mem_cons_self _ _), ih fun b hb => h b (List.mem_cons_of_mem _ hb)]

theorem State.Inv.advance_isSome {s : State} (hs : s.Inv) {i : Nat} {g : Goroutine}
    (hi : s.goroutines[i]? = some g) {op : LockOp} (hop : g.next? = some op)
    (hfree : ∀ m, op = .lock m ∨ op = .rlock m → s.writers m = 0 ∧ s.readers m = 0) :
    ∃ s', s.advance i = some s' := by
  suffices hw : ∃ w, (s.mutex op.mutex).call op = some w by
    obtain ⟨w, hw⟩ := hw
    exact ⟨_, State.advance_eq_some.mpr ⟨g, op, w, hi, hop, hw, rfl⟩⟩
  have hrd := hs.readers
  cases op with
  | lock m =>
    obtain ⟨h0, h1⟩ := hfree m (.inl rfl)
    have hwr : (s.mutex m).writer = false := by
      simpa [h0] using hs.writer m
    exact ⟨_, if_pos ⟨hwr, (hrd m).trans h1⟩⟩
  | rlock m =>
    have hwr : (s.mutex m).writer = false := by
      simpa [(hfree m (.inr rfl)).1] using hs.writer m
    simp [RWMutex.call, LockOp.mutex, hwr]
  | unlock m =>
    have h1 := lt_of_lt_of_le ((hs.held_of_next hi).1 hop) (writeHeld_le_writers hi m)
    simp [RWMutex.call, LockOp.mutex, (hs.writer m).mpr h1]
  | runlock m =>
    have h1 := lt_of_lt_of_le ((hs.held_of_next hi).2 hop) (readHeld_le_readers hi m)
    simp [RWMutex.call, LockOp.mutex, hrd m, h1]

/-- Nothing but a reload that read-locks `TLSManager.mu` under its own `Lock` gets the proxy
stuck: while no goroutine runs `Server.UpdateConfig` on a path where `TLSManager.UpdateConfig`
would return nil, and some goroutine has a lock call left, some goroutine can make its next
call. -/
theorem progress {s : State} (hs : Reachable s)
    (hno : ∀ g ∈ s.goroutines, ∀ cfg loads, (certificateFiles cfg.tls = none ∨ loads = true) →
      g.ops ≠ Server.updateConfigOps cfg loads)
    {i : Nat} {g : Goroutine} (hi : s.goroutines[i]? = some g) {op : LockOp} (hop : g.next? = some op) :
    ∃ j s', s.advance j = some s' := by
  have hinv := hs.inv
  have hord : ∀ h ∈ s.goroutines, NextInOrder h.done h.next? := by
    intro h hh
    obtain ⟨c, hc⟩ := hs.calls h hh
    rcases c.ordered with ho | ⟨cfg, loads, rfl, hpath⟩
    · exact (hc ▸ ho : Ordered h.ops).next
    · exact absurd hc (hno h hh cfg loads hpath)
  by_cases hA : ∃ h ∈ s.goroutines, 0 < writeHeld .tls h.done ∨ 0 < readHeld .tls h.done
  · obtain ⟨h, hh, hheld⟩ := hA
    obtain ⟨j, hj⟩ := List.mem_iff_getElem?.mp hh
    rcases hheld with hw | hr
    · exact ⟨j, hinv.advance_isSome hj ((hord h hh).1 hw) fun _ hm => by rcases hm with hm | hm <;> cases hm⟩
    · exact ⟨j, hinv.advance_isSome hj ((hord h hh).2.1 hr) fun _ hm => by rcases hm with hm | hm <;> cases hm⟩
  have hA' : ∀ h ∈ s.goroutines, writeHeld .tls h.done = 0 ∧ readHeld .tls h.done = 0 :=
    fun h hh => by
      have := not_or.mp fun hx => hA ⟨h, hh, hx⟩
      omega
  have htls : s.writers .tls = 0 ∧ s.readers .tls = 0 :=
    ⟨total_eq_zero fun h hh => (hA' h hh).1, total_eq_zero fun h hh => (hA' h hh).2⟩
  by_cases hB : ∃ h ∈ s.goroutines, 0 < writeHeld .server h.done ∨ 0 < readHeld .server h.done
  · obtain ⟨h, hh, hheld⟩ := hB
    obtain ⟨j, hj⟩ := List.mem_iff_getElem?.mp hh
    have hn := (hord h hh).2.2 (hA' h hh).1 (hA' h hh).2
    have hnext : h.next? = some (.unlock .server) ∨ h.next? = some (.runlock .server) ∨
        h.next? = some (.lock .tls) ∨ h.next? = some (.rlock .tls) := by
      rcases hheld with hw | hr
      · rcases hn.1 hw with h1 | h1 | h1 <;> simp [h1]
      · rcases hn.2 hr with h1 | h1 | h1 <;> simp [h1]
    rcases hnext with h1 | h1 | h1 | h1
    · exact ⟨j, hinv.advance_isSome hj h1 fun _ hm => by rcases hm with hm | hm <;> cases hm⟩
    · exact ⟨j, hinv.advance_isSome hj h1 fun _ hm => by rcases hm with hm | hm <;> cases hm⟩
    · exact ⟨j, hinv.advance_isSome hj h1 fun m hm => by rcases hm with hm | hm <;> cases hm; exact htls⟩
    · exact ⟨j, hinv.advance_isSome hj h1 fun m hm => by rcases hm with hm | hm <;> cases hm; exact htls⟩
  · have hfree : ∀ m, s.writers m = 0 ∧ s.readers m = 0 := by
      intro m
      cases m
      · refine ⟨total_eq_zero fun h hh => ?_, total_eq_zero fun h hh => ?_⟩ <;>
        · have := not_or.mp fun hx => hB ⟨h, hh, hx⟩
          omega
      · exact htls
    exact ⟨i, hinv.advance_isSome hi hop fun m _ => hfree m⟩

theorem Server.updateConfigOps_length {cfg : Config} {loads : Bool}
    (hpath : certificateFiles cfg.tls = none ∨ loads = true) :
    (Server.updateConfigOps cfg loads).length = 6 := by
  unfold Server.updateConfigOps TLSManager.updateConfigOps
  rcases hpath with h | rfl
  · rw [h]; rfl
  · cases certificateFiles cfg.tls <;> rfl

theorem progress_failedReload :
    let cfg : Config := { Config.empty with tls := some ⟨"c", "k"⟩ }
    let s : State := ⟨fun _ => ⟨true, 0⟩, [⟨(Call.updateConfig cfg false).ops, 1⟩, ⟨Call.start.ops, 3⟩]⟩
    Reachable s ∧ (∀ g ∈ s.goroutines, ∀ cfg' loads, (certificateFiles cfg'.tls = none ∨ loads = true) →
      g.ops ≠ Server.updateConfigOps cfg' loads) ∧
      s.goroutines[0]? = some ⟨(Call.updateConfig cfg false).ops, 1⟩ ∧
      (⟨(Call.updateConfig cfg false).ops, 1⟩ : Goroutine).next? = some (.lock .tls) ∧
      ∃ j s', s.advance j = some s' := by
  intro cfg s
  have hrun : Reachable ⟨Function.update (Function.update (Function.update (Function.update
      (fun _ => RWMutex.free) Mutex.server ⟨true, 0⟩) Mutex.tls ⟨false, 1⟩) Mutex.tls ⟨false, 0⟩)
      Mutex.tls ⟨true, 0⟩, s.goroutines⟩ :=
    .tail (.tail (.tail (.tail (.tail (.single (.start _ (.updateConfig cfg false)))
      (.advance 0 rfl)) (.start _ .start)) (.advance 1 rfl)) (.advance 1 rfl)) (.advance 1 rfl)
  have hword : Function.update (Function.update (Function.update (Function.update
      (fun _ => RWMutex.free) Mutex.server ⟨true, 0⟩) Mutex.tls ⟨false, 1⟩) Mutex.tls ⟨false, 0⟩)
      Mutex.tls ⟨true, 0⟩ = fun _ => ⟨true, 0⟩ := funext fun m => by cases m <;> rfl
  have hr : Reachable ⟨fun _ => ⟨true, 0⟩, s.goroutines⟩ := hword ▸ hrun
  have hno : ∀ g ∈ s.goroutines, ∀ cfg' loads, (certificateFiles cfg'.tls = none ∨ loads = true) →
      g.ops ≠ Server.updateConfigOps cfg' loads := by
    intro g hg cfg' loads hpath heq
    simp only [s, List.mem_cons, List.mem_singleton, List.not_mem_nil, or_false] at hg
    rcases hg with rfl | rfl
    · have := congrArg List.length heq
      rw [Server.updateConfigOps_length hpath] at this
      exact absurd this (by decide)
    · simp [Call.ops, Server.startOps, TLSManager.getTLSConfigOps, Server.updateConfigOps] at heq
  have hi : s.goroutines[0]? = some ⟨(Call.updateConfig cfg false).ops, 1⟩ := rfl
  have hop : (⟨(Call.updateConfig cfg false).ops, 1⟩ : Goroutine).next? = some (.lock .tls) := rfl
  exact ⟨hr, hno, hi, hop, progress hr hno hi hop⟩

end FluxGate.Proxy.Locking
