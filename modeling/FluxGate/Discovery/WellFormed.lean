import FluxGate.Discovery.Registry

/-!
# Well-formed registries

A registry is well formed when, under each service key, every instance names that service and
no two instances share an `ID`. Every operation keeps it: `Register` and the register branch of
`NotifyMsg` upsert an instance under its own service, `Deregister` and the deregister branch
remove one, and `MergeRemoteState` keeps it when the remote table is well formed, as the
`LocalState` of a well-formed registry is, since it decodes back to the same table.
-/

namespace FluxGate.Discovery

def WellFormedList (k : String) (l : List ServiceInstance) : Prop :=
  (∀ inst ∈ l, inst.service = k) ∧ (l.map (·.id)).Nodup

/-- Under each service key, every instance names that service and no two share an `ID`. -/
def Service.WellFormed (s : Service) : Prop := ∀ k, WellFormedList k (s.getInstances k)

namespace WellFormedList

variable {k : String} {l : List ServiceInstance}

theorem nil : WellFormedList k [] := ⟨by simp, List.nodup_nil⟩

theorem upsert (h : WellFormedList k l) {inst : ServiceInstance} (hi : inst.service = k) :
    WellFormedList k (FluxGate.Discovery.upsert inst l) :=
  ⟨fun x hx => (mem_upsert hx).elim (· ▸ hi) (h.1 x), ids_nodup_upsert h.2⟩

theorem foldl_upsert (h : WellFormedList k l) {L : List ServiceInstance}
    (hL : ∀ inst ∈ L, inst.service = k) :
    WellFormedList k (L.foldl (fun acc i => FluxGate.Discovery.upsert i acc) l) := by
  induction L generalizing l with
  | nil => exact h
  | cons i L ih =>
    simp only [List.mem_cons, forall_eq_or_imp] at hL
    exact ih (h.upsert hL.1) hL.2

theorem dropId (h : WellFormedList k l) {serviceID : String} {l' : List ServiceInstance}
    (hd : FluxGate.Discovery.dropId serviceID l = some l') : WellFormedList k l' := by
  obtain ⟨a, x, b, rfl, rfl, -⟩ := dropId_eq_some hd
  refine ⟨fun y hy => h.1 y ?_, ids_nodup_dropId h.2 hd⟩
  rcases List.mem_append.mp hy with hy | hy
  · exact List.mem_append_left _ hy
  · exact List.mem_append_right _ (List.mem_cons_of_mem _ hy)

end WellFormedList

namespace Service

variable {s s' : Service}

theorem wellFormed_empty : empty.WellFormed := fun _ => WellFormedList.nil

theorem WellFormed.put (h : s.WellFormed) (inst : ServiceInstance) : (s.put inst).WellFormed := by
  intro k
  rw [getInstances_put]
  split
  · next hk => exact hk ▸ (h inst.service).upsert rfl
  · exact h k

theorem WellFormed.removeId (h : s.WellFormed) {serviceID : String} {order : List String}
    (hr : s.removeId serviceID order = some s') : s'.WellFormed := by
  obtain ⟨-, k, -, l, -, -, hl, rfl⟩ := removeId_eq_some hr
  intro k'
  rw [getInstances_insert]
  split
  · next hk => exact hk ▸ (h k).dropId hl
  · exact h k'

theorem applyMessage_eq_some {order : List String} {message : List (String × GoAny)}
    (h : s.applyMessage order message = some s') :
    (∃ inst, s' = s.put inst) ∨ ∃ serviceID, s.removeId serviceID order = some s' := by
  unfold applyMessage at h
  repeat' split at h
  all_goals first
    | exact .inl ⟨_, (Option.some.inj h).symm⟩
    | exact .inr ⟨_, h⟩
    | cases h

theorem WellFormed.notifyMsg (h : s.WellFormed) (order : List String) (msg : Payload) :
    (s.notifyMsg order msg).1.WellFormed := by
  unfold Service.notifyMsg
  repeat' split
  all_goals first
    | exact h
    | next hm =>
      rcases applyMessage_eq_some hm with ⟨inst, rfl⟩ | ⟨_, hr⟩
      · exact h.put inst
      · exact h.removeId hr

def RemoteWellFormed (remote : GoMap String (Option (List ServiceInstance))) : Prop :=
  ∀ k L, remote.get? k = some (some L) → WellFormedList k L

theorem WellFormed.mergeRemoteState (h : s.WellFormed) {j : Json}
    {remote : GoMap String (Option (List ServiceInstance))} (hj : decodeServices j = .ok remote)
    (hr : RemoteWellFormed remote) : (s.mergeRemoteState (some j)).1.WellFormed := by
  intro k
  have hk : WellFormedList k ((s.lookup k).getD []) := h k
  unfold getInstances
  rw [lookup_mergeRemoteState s hj k]
  cases hv : remote.get? k with
  | none => exact hk
  | some v =>
    cases v with
    | none => cases hl : s.lookup k <;> simpa [mergeValue, hl] using hk
    | some L =>
      have hL := hr k L hv
      cases hl : s.lookup k with
      | none => simpa [mergeValue] using hL
      | some l => simpa [mergeValue, hl] using (show WellFormedList k l by simpa [hl] using hk).foldl_upsert hL.1

theorem decodeList_toJson (l : List ServiceInstance) :
    decodeServices.decodeList (l.map ServiceInstance.toJson) = .ok l := by
  induction l with
  | nil => rfl
  | cons x l ih => simp [decodeServices.decodeList, decodeInstance_toJson, ih]

theorem decodeEntries_sliceJson (m : GoMap String (Option (List ServiceInstance)))
    (es : List (String × Option (List ServiceInstance))) (h : ((m.entries ++ es).map Prod.fst).Nodup) :
    decodeServices.decodeEntries m (es.map fun e => (e.1, sliceJson e.2)) = .ok ⟨m.entries ++ es, h⟩ := by
  induction es generalizing m with
  | nil => obtain ⟨entries, _⟩ := m; simp [decodeServices.decodeEntries]
  | cons e es ih =>
    obtain ⟨k, v⟩ := e
    have hk : k ∉ m.entries.map Prod.fst := by
      simp only [List.map_append, List.map_cons, List.nodup_append, List.nodup_cons] at h
      exact fun hk => h.2.2 hk (List.mem_cons_self _ _)
    have hm : ∀ v', (m.insert k v').entries = m.entries ++ [(k, v')] := fun _ => setEntry_of_not_mem hk
    have := fun v' => ih (m.insert k v') (by simpa [hm] using h)
    cases v with
    | none => simpa [decodeServices.decodeEntries, sliceJson, hm] using this none
    | some l => simpa [decodeServices.decodeEntries, sliceJson, decodeList_toJson, hm] using this (some l)

theorem decodeServices_localState (s : Service) : decodeServices (localState s) = .ok s.services := by
  have := decodeEntries_sliceJson GoMap.empty s.services.entries (by simpa using s.services.nodup)
  simpa [decodeServices, localState] using this

theorem WellFormed.remote (h : s.WellFormed) : RemoteWellFormed s.services := by
  intro k L hL
  simpa [getInstances, lookup, hL] using h k

theorem WellFormed.mergeLocalState (h : s.WellFormed) {past : Service} (hp : past.WellFormed) :
    (s.mergeRemoteState (some (localState past))).1.WellFormed :=
  h.mergeRemoteState (decodeServices_localState past) hp.remote

end Service

end FluxGate.Discovery
