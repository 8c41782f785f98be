import FluxGate.Discovery.Service

/-!
# What the registry operations do to the table

One specification lemma per operation, stated on `getInstances`, the per-service view every
reader of the table goes through: `Register` upserts by `ID` within the instance's own
service, `Deregister` removes the first instance with the `ID` in the first service, in
`range` order, that holds one, and the deregister delta has the same effect through
`NotifyMsg`.
-/

namespace FluxGate.Discovery

namespace Service

variable {s s' : Service} {inst : ServiceInstance} {serviceID : String} {order : List String}

theorem upsert_cases (inst : ServiceInstance) (l : List ServiceInstance) :
    ∃ a b, upsert inst l = a ++ inst :: b ∧
      ((∃ x, l = a ++ x :: b ∧ x.id = inst.id ∧ ∀ y ∈ a, y.id ≠ inst.id) ∨
        (b = [] ∧ l = a ∧ ∀ y ∈ a, y.id ≠ inst.id)) := by
  induction l with
  | nil => exact ⟨[], [], rfl, .inr ⟨rfl, rfl, by simp⟩⟩
  | cons y l ih =>
    by_cases h : y.id = inst.id
    · exact ⟨[], l, by simp [upsert, h], .inl ⟨y, rfl, h, by simp⟩⟩
    · obtain ⟨a, b, hu, hc⟩ := ih
      refine ⟨y :: a, b, by simp [upsert, h, hu], ?_⟩
      rcases hc with ⟨x, rfl, hx, ha⟩ | ⟨rfl, rfl, ha⟩
      · exact .inl ⟨x, rfl, hx, by simpa [h] using ha⟩
      · exact .inr ⟨rfl, rfl, by simpa [h] using ha⟩

/-- `Register` is an upsert by `ID` within `inst.Service`: the first instance there with
`inst.ID` is replaced where it stands, or `inst` is appended; every other service is left as
it was, whatever `ID`s it holds. -/
theorem register_upserts_within_service (s : Service) (inst : ServiceInstance) :
    (∀ k, k ≠ inst.service → (s.register inst).1.getInstances k = s.getInstances k) ∧
    ∃ a b, (s.register inst).1.getInstances inst.service = a ++ inst :: b ∧
      ((∃ x, s.getInstances inst.service = a ++ x :: b ∧ x.id = inst.id ∧ ∀ y ∈ a, y.id ≠ inst.id) ∨
        (b = [] ∧ s.getInstances inst.service = a ∧ ∀ y ∈ a, y.id ≠ inst.id)) := by
  refine ⟨fun k hk => by simp [register, Ne.symm hk], ?_⟩
  simpa [register] using upsert_cases inst (s.getInstances inst.service)

/-- `Register` twice with one `ID` under two services, from the empty registry. -/
def twoServices : Service :=
  ((empty.register ⟨"x", "a", "h", 1, StrMap.empty⟩).1.register ⟨"x", "b", "h", 1, StrMap.empty⟩).1

theorem register_keeps_id_in_other_service :
    Reachable (empty.register ⟨"x", "a", "h", 1, StrMap.empty⟩).1 ∧
      (⟨"x", "a", "h", 1, StrMap.empty⟩ : ServiceInstance) ∈ twoServices.getInstances "a" ∧
      (⟨"x", "b", "h", 1, StrMap.empty⟩ : ServiceInstance) ∈ twoServices.getInstances "b" :=
  ⟨.step (.register _) .empty trivial, by decide, by decide⟩

theorem removeId_eq_none_iff :
    s.removeId serviceID order = none ↔ ∀ k ∈ order, ∀ x ∈ s.getInstances k, x.id ≠ serviceID := by
  induction order with
  | nil => simp [removeId]
  | cons k order ih =>
    cases h : dropId serviceID (s.getInstances k) with
    | none =>
      have hk := dropId_eq_none_iff.mp h
      simp only [removeId, h, ih, List.mem_cons, forall_eq_or_imp]
      exact ⟨fun h' => ⟨hk, h'⟩, And.right⟩
    | some l =>
      simp only [removeId, h, reduceCtorEq, false_iff, List.mem_cons, not_forall]
      obtain ⟨a, x, b, hl, -, hx, -⟩ := dropId_eq_some h
      exact ⟨k, .inl rfl, x, by simp [hl], by simpa using hx⟩

theorem removeId_eq_some (h : s.removeId serviceID order = some s') :
    ∃ pre k post l, order = pre ++ k :: post ∧
      (∀ k' ∈ pre, ∀ x ∈ s.getInstances k', x.id ≠ serviceID) ∧
      dropId serviceID (s.getInstances k) = some l ∧ s' = ⟨s.services.insert k (some l)⟩ := by
  induction order with
  | nil => simp [removeId] at h
  | cons k order ih =>
    cases hk : dropId serviceID (s.getInstances k) with
    | some l =>
      simp only [removeId, hk, Option.some.injEq] at h
      exact ⟨[], k, order, l, rfl, by simp, hk, h.symm⟩
    | none =>
      simp only [removeId, hk] at h
      obtain ⟨pre, k', post, l, rfl, hpre, hl, rfl⟩ := ih h
      refine ⟨k :: pre, k', post, l, rfl, ?_, hl, rfl⟩
      simp only [List.mem_cons, forall_eq_or_imp]
      exact ⟨dropId_eq_none_iff.mp hk, hpre⟩

theorem mem_getInstances_of_removeId (hr : s.removeId serviceID order = some s') {k : String}
    {x : ServiceInstance} (hx : x ∈ s'.getInstances k) : x ∈ s.getInstances k := by
  obtain ⟨-, k', -, l, -, -, hl, rfl⟩ := removeId_eq_some hr
  obtain ⟨a, y, b, hab, rfl, -⟩ := dropId_eq_some hl
  rw [getInstances_insert] at hx
  split at hx
  · next hk =>
    subst hk
    rw [hab]
    simp only [Option.getD_some, List.mem_append, List.mem_cons] at hx ⊢
    tauto
  · exact hx

theorem mem_order_iff (horder : order.Perm s.services.keys) (k : String) :
    (∃ x ∈ s.getInstances k, x.id = serviceID) → k ∈ order := by
  rintro ⟨x, hx, -⟩
  refine horder.mem_iff.mpr ((GoMap.get?_isSome_iff _ _).mp ?_)
  cases h : s.services.get? k with
  | none => simp [getInstances, lookup, h] at hx
  | some v => rfl

theorem notifyMsg_deregisterDelta (s : Service) (order : List String) (serviceID : String) :
    (s.notifyMsg order (some (deregisterDelta serviceID))).1 = (s.removeId serviceID order).getD s := by
  cases hr : s.removeId serviceID order <;>
    simp [notifyMsg, deregisterDelta, decodeMessage, decodeAny.decodeObject, decodeAny, setEntry,
      applyMessage, lookupEntry, hr]

/-- `Deregister` fails exactly when no service holds the `ID`, and then changes nothing (it
returns no new table, queues nothing and notifies no one). Otherwise it removes one instance:
the first with that `ID` in the first service, in `range` order, that holds one; every other
instance stays under its service in the same order; it queues the deregister delta and notifies
the listeners. Delivered through `NotifyMsg` with the same `range` order, that delta changes the
table in the same way. -/
theorem deregister_removes_first_hit (s : Service) (order : List String)
    (horder : order.Perm s.services.keys) (serviceID : String) :
    ((∃ e, s.deregister order serviceID = .error e) ↔ ∀ k, ∀ x ∈ s.getInstances k, x.id ≠ serviceID) ∧
    (∀ s' effects, s.deregister order serviceID = .ok (s', effects) →
      effects = [.queueBroadcast (deregisterDelta serviceID), .notifyListeners s'.getAllServices] ∧
      ∃ pre k post, order = pre ++ k :: post ∧
        (∀ k' ∈ pre, ∀ x ∈ s.getInstances k', x.id ≠ serviceID) ∧
        dropId serviceID (s.getInstances k) = some (s'.getInstances k) ∧
        ∀ k', k' ≠ k → s'.getInstances k' = s.getInstances k') ∧
    (s.notifyMsg order (some (deregisterDelta serviceID))).1 =
      match s.deregister order serviceID with
      | .ok r => r.1
      | .error _ => s := by
  refine ⟨?_, fun s' effects h => ?_, ?_⟩
  · constructor
    · rintro ⟨e, he⟩ k x hx rfl
      cases h : s.removeId x.id order with
      | some _ => simp [deregister, h] at he
      | none => exact removeId_eq_none_iff.mp h k (mem_order_iff horder k ⟨x, hx, rfl⟩) x hx rfl
    · intro h
      have : s.removeId serviceID order = none := removeId_eq_none_iff.mpr fun k _ => h k
      exact ⟨"service instance not found: " ++ serviceID, by simp [deregister, this]⟩
  · cases hr : s.removeId serviceID order with
    | none => simp [deregister, hr] at h
    | some s₁ =>
      simp only [deregister, hr, Except.ok.injEq, Prod.mk.injEq] at h
      obtain ⟨rfl, rfl⟩ := h
      obtain ⟨pre, k, post, l, rfl, hpre, hl, rfl⟩ := removeId_eq_some hr
      exact ⟨rfl, pre, k, post, rfl, hpre, by simpa using hl, fun k' hk' => by simp [Ne.symm hk']⟩
  · rw [notifyMsg_deregisterDelta]
    cases hr : s.removeId serviceID order <;> simp [deregister, hr]

theorem deregister_removes_first_hit_twoServices :
    ["a", "b"].Perm twoServices.services.keys ∧
    (((∃ e, twoServices.deregister ["a", "b"] "x" = .error e) ↔
        ∀ k, ∀ x ∈ twoServices.getInstances k, x.id ≠ "x") ∧
      (∀ s' effects, twoServices.deregister ["a", "b"] "x" = .ok (s', effects) →
        effects = [.queueBroadcast (deregisterDelta "x"), .notifyListeners s'.getAllServices] ∧
        ∃ pre k post, ["a", "b"] = pre ++ k :: post ∧
          (∀ k' ∈ pre, ∀ x ∈ twoServices.getInstances k', x.id ≠ "x") ∧
          dropId "x" (twoServices.getInstances k) = some (s'.getInstances k) ∧
          ∀ k', k' ≠ k → s'.getInstances k' = twoServices.getInstances k') ∧
      (twoServices.notifyMsg ["a", "b"] (some (deregisterDelta "x"))).1 =
        match twoServices.deregister ["a", "b"] "x" with
        | .ok r => r.1
        | .error _ => twoServices) :=
  ⟨.refl _, deregister_removes_first_hit twoServices ["a", "b"] (.refl _) "x"⟩

/-- `twoServices` after `Deregister("x")`, visiting `a` first. -/
theorem deregister_leaves_other_copy :
    Reachable twoServices ∧ ["a", "b"].Perm twoServices.services.keys ∧
      ∃ s' effects, twoServices.deregister ["a", "b"] "x" = .ok (s', effects) ∧
        (⟨"x", "b", "h", 1, StrMap.empty⟩ : ServiceInstance) ∈ s'.getInstances "b" :=
  ⟨.step (.register _) (.step (.register _) .empty trivial) trivial, .refl _, _, _, rfl, by decide⟩

theorem notifyMsg_registerDelta (s : Service) (order : List String) (inst : ServiceInstance) :
    s.notifyMsg order (some (registerDelta inst)) =
      match intThroughAny (encodeInt inst.port) with
      | .ok p => (s.put { inst with port := p }, [.notifyListeners (s.put { inst with port := p }).getAllServices])
      | .error _ => (s, []) := by
  obtain ⟨id, service, address, port, md⟩ := inst
  cases hf : Float64.ofLit (encodeInt port) with
  | none =>
    simp [notifyMsg, registerDelta, decodeMessage, decodeAny.decodeObject, decodeAny, setEntry,
      ServiceInstance.toJson, hf, intThroughAny]
  | some f =>
    by_cases h : md.entries = []
    · obtain rfl : md = StrMap.empty := by cases md; simp_all [StrMap.empty]
      have hm : (GoAny.map [("id", .str id), ("service", .str service), ("address", .str address),
          ("port", .float f)]).marshal = .obj [("address", .str address), ("id", .str id),
          ("port", .num f.marshal), ("service", .str service)] := rfl
      cases hd : decodeInt f.marshal <;>
        simp [notifyMsg, registerDelta, decodeMessage, decodeAny.decodeObject, decodeAny, setEntry,
          ServiceInstance.toJson, hf, intThroughAny, applyMessage, lookupEntry, StrMap.empty, hm, hd,
          decodeInstance, decodeInstance.decodeFields, Field.ofKey, foldRune, setField,
          ServiceInstance.zero]
    · have hmd : decodeAny.decodeObject [] (md.entries.map fun e => (e.1, Json.str e.2)) =
          .ok (md.entries.map fun e => (e.1, GoAny.str e.2)) := by
        simpa using decodeObject_strs [] md.entries
          (by simpa [List.map_map, Function.comp_def] using md.keys_nodup)
      have hm : (GoAny.map [("id", .str id), ("service", .str service), ("address", .str address),
          ("port", .float f), ("metadata", .map (md.entries.map fun e => (e.1, GoAny.str e.2)))]).marshal =
          .obj [("address", .str address), ("id", .str id),
            ("metadata", (GoAny.map (md.entries.map fun e => (e.1, GoAny.str e.2))).marshal),
            ("port", .num f.marshal), ("service", .str service)] := rfl
      have hmm : (GoAny.map (md.entries.map fun e => (e.1, GoAny.str e.2))).marshal =
          .obj (md.entries.map fun e => (e.1, Json.str e.2)) := by
        rw [GoAny.marshal, marshalObject_strs,
          @sortKeys_of_sorted _ (md.entries.map fun e => (e.1, Json.str e.2)) (List.pairwise_map.mpr md.sorted)]
      cases hd : decodeInt f.marshal <;>
        simp [notifyMsg, registerDelta, decodeMessage, decodeAny.decodeObject, decodeAny, setEntry,
          ServiceInstance.toJson, hf, intThroughAny, applyMessage, lookupEntry, h, hmd, hm, hmm, hd,
          decodeInstance, decodeInstance.decodeFields, Field.ofKey, foldRune, setField,
          ServiceInstance.zero, decodeMetadata_toJson]

/-- One step of the merge rule of the spec: the remote instances of a service upserted by `ID`,
in payload order, into its list, an absent service counting as empty. -/
def upsertService (s : Service) (service : String) (instances : Option (List ServiceInstance)) :
    Service :=
  ⟨s.services.insert service (some ((instances.getD []).foldl (fun acc i => upsert i acc) (s.getInstances service)))⟩

/-- The merge rule of the spec, over the whole remote map. -/
def mergeByUpsert (s : Service) (remote : GoMap String (Option (List ServiceInstance))) : Service :=
  remote.entries.foldl (fun s e => s.upsertService e.1 e.2) s

/-- The value one iteration of `MergeRemoteState` leaves under its key, from the remote list and
the local one (`none` for nil). -/
def mergeValue (instances current : Option (List ServiceInstance)) : Option (List ServiceInstance) :=
  match current with
  | none => instances
  | some l => some ((instances.getD []).foldl (fun acc i => upsert i acc) l)

@[simp] theorem lookup_insert (s : Service) (k k' : String) (v : Option (List ServiceInstance)) :
    (⟨s.services.insert k v⟩ : Service).lookup k' = if k = k' then v else s.lookup k' := by
  by_cases h : k = k' <;> simp [lookup, h]

theorem lookup_mergeService (s : Service) (k k' : String) (v : Option (List ServiceInstance)) :
    (s.mergeService k v).lookup k' = if k = k' then mergeValue v (s.lookup k') else s.lookup k' := by
  unfold mergeService mergeValue
  by_cases hk : k = k'
  · subst hk; cases s.lookup k <;> simp
  · cases s.lookup k <;> simp [hk]

theorem lookup_upsertService (s : Service) (k k' : String) (v : Option (List ServiceInstance)) :
    (s.upsertService k v).lookup k' =
      if k = k' then some ((v.getD []).foldl (fun acc i => upsert i acc) ((s.lookup k').getD []))
      else s.lookup k' := by
  by_cases hk : k = k' <;> simp [upsertService, getInstances, hk]

theorem lookup_foldl (G : Option (List ServiceInstance) → Option (List ServiceInstance) →
      Option (List ServiceInstance)) {step : Service → String × Option (List ServiceInstance) → Service}
    (hstep : ∀ s e k, (step s e).lookup k = if e.1 = k then G e.2 (s.lookup k) else s.lookup k)
    {entries : List (String × Option (List ServiceInstance))} (hl : (entries.map Prod.fst).Nodup)
    (s : Service) (k : String) :
    (entries.foldl step s).lookup k =
      match lookupEntry k entries with
      | some v => G v (s.lookup k)
      | none => s.lookup k := by
  induction entries generalizing s with
  | nil => rfl
  | cons e entries ih =>
    obtain ⟨k', v⟩ := e
    simp only [List.map_cons, List.nodup_cons] at hl
    rw [List.foldl_cons, ih hl.2, hstep]
    by_cases he : k' = k
    · subst he
      have : lookupEntry k' entries = none :=
        Option.not_isSome_iff_eq_none.mp (mt (GoMap.lookupEntry_isSome_iff _ _).mp hl.1)
      simp [lookupEntry, this]
    · simp only [lookupEntry, he, if_false]

theorem mergeValue_getD {v : Option (List ServiceInstance)}
    (hv : ∀ L, v = some L → (L.map (·.id)).Nodup) (c : Option (List ServiceInstance)) :
    (mergeValue v c).getD [] = (v.getD []).foldl (fun acc i => upsert i acc) (c.getD []) := by
  cases v with
  | none => cases c <;> rfl
  | some L => cases c <;> simp [mergeValue, foldl_upsert_nil (hv L rfl)]

theorem mergeValue_idem {v : Option (List ServiceInstance)}
    (hv : ∀ L, v = some L → (L.map (·.id)).Nodup) (c : Option (List ServiceInstance)) :
    mergeValue v (mergeValue v c) = mergeValue v c := by
  cases v with
  | none => cases c <;> rfl
  | some L =>
    have hL := hv L rfl
    cases c with
    | none =>
      have := findId_foldl_upsert hL []
      rw [foldl_upsert_nil hL] at this
      simp [mergeValue, foldl_upsert_of_findId this]
    | some l => simp [mergeValue, foldl_upsert_idem hL]

theorem lookup_mergeRemoteState (s : Service) {j : Json}
    {remote : GoMap String (Option (List ServiceInstance))} (h : decodeServices j = .ok remote)
    (k : String) :
    (s.mergeRemoteState (some j)).1.lookup k =
      match remote.get? k with
      | some v => mergeValue v (s.lookup k)
      | none => s.lookup k := by
  simp only [mergeRemoteState, h]
  exact lookup_foldl mergeValue (fun s e k => lookup_mergeService s e.1 k e.2) remote.nodup s k

theorem getInstances_mergeByUpsert (s : Service) (remote : GoMap String (Option (List ServiceInstance)))
    (k : String) :
    (mergeByUpsert s remote).getInstances k =
      match remote.get? k with
      | some v => (v.getD []).foldl (fun acc i => upsert i acc) (s.getInstances k)
      | none => s.getInstances k := by
  unfold getInstances mergeByUpsert GoMap.get?
  rw [lookup_foldl (fun v c => some ((v.getD []).foldl (fun acc i => upsert i acc) (c.getD [])))
    (fun s e k => lookup_upsertService s e.1 k e.2) remote.nodup s k]
  cases lookupEntry k remote.entries <;> rfl

/-- The merge rule of the spec, for payloads whose lists each repeat no `ID`. `MergeRemoteState`
leaves the table as it was, and notifies no listener, when the payload does not decode as a map
from service name to instance list. When it does, both of its branches agree with upserting
the payload by `ID`, and merging the same payload twice is merging it once. -/
theorem mergeRemoteState_upserts_by_id (s : Service) (buf : Payload) :
    ((buf = none ∨ ∃ j e, buf = some j ∧ decodeServices j = .error e) →
      s.mergeRemoteState buf = (s, [])) ∧
    ∀ j remote, buf = some j → decodeServices j = .ok remote →
      (∀ k L, remote.get? k = some (some L) → (L.map (·.id)).Nodup) →
      (∀ k, (s.mergeRemoteState buf).1.getInstances k = (mergeByUpsert s remote).getInstances k) ∧
      ∀ k, ((s.mergeRemoteState buf).1.mergeRemoteState buf).1.lookup k =
        (s.mergeRemoteState buf).1.lookup k := by
  refine ⟨?_, fun j remote hb hj hnd => ⟨fun k => ?_, fun k => ?_⟩⟩
  · rintro (rfl | ⟨j, e, rfl, hj⟩)
    · rfl
    · simp [mergeRemoteState, hj]
  · subst hb
    rw [getInstances_mergeByUpsert, getInstances, lookup_mergeRemoteState s hj]
    cases hk : remote.get? k with
    | none => rfl
    | some v => exact mergeValue_getD (fun L hL => hnd k L (hL ▸ hk)) _
  · subst hb
    rw [lookup_mergeRemoteState _ hj, lookup_mergeRemoteState s hj]
    cases hk : remote.get? k with
    | none => rfl
    | some v => exact mergeValue_idem (fun L hL => hnd k L (hL ▸ hk)) _

/-- A state whose list for `a` holds two instances with one `ID`, as a peer that adopted such a
list sends it. -/
def repeatedIdState : Json :=
  .obj [("a", .arr [ServiceInstance.toJson ⟨"x", "a", "h", 1, StrMap.empty⟩,
    ServiceInstance.toJson ⟨"x", "a", "g", 1, StrMap.empty⟩])]

/-- On a list that repeats an `ID`, the branch that adopts the list for a service the node
lacks keeps both copies, where the branch that upserts into a list the node holds, even an empty
one, keeps the last, as the merge rule does; and a second merge of the same payload changes the
table again. -/
theorem mergeRemoteState_adopts_repeated_id :
    decodeServices repeatedIdState =
      .ok (GoMap.empty.insert "a" (some [⟨"x", "a", "h", 1, StrMap.empty⟩, ⟨"x", "a", "g", 1, StrMap.empty⟩])) ∧
    (empty.mergeRemoteState (some repeatedIdState)).1.getInstances "a" =
      [⟨"x", "a", "h", 1, StrMap.empty⟩, ⟨"x", "a", "g", 1, StrMap.empty⟩] ∧
    (((empty.run (.register ⟨"x", "a", "h", 1, StrMap.empty⟩)).1.run (.deregister ["a"] "x")).1.mergeRemoteState
      (some repeatedIdState)).1.getInstances "a" = [⟨"x", "a", "g", 1, StrMap.empty⟩] ∧
    (mergeByUpsert empty (GoMap.empty.insert "a"
      (some [⟨"x", "a", "h", 1, StrMap.empty⟩, ⟨"x", "a", "g", 1, StrMap.empty⟩]))).getInstances "a" =
      [⟨"x", "a", "g", 1, StrMap.empty⟩] ∧
    ((empty.mergeRemoteState (some repeatedIdState)).1.mergeRemoteState (some repeatedIdState)).1.getInstances "a" =
      [⟨"x", "a", "g", 1, StrMap.empty⟩, ⟨"x", "a", "g", 1, StrMap.empty⟩] := by
  have hd : decodeServices repeatedIdState = .ok (GoMap.empty.insert "a"
      (some [⟨"x", "a", "h", 1, StrMap.empty⟩, ⟨"x", "a", "g", 1, StrMap.empty⟩])) := by
    simp [repeatedIdState, decodeServices, decodeServices.decodeEntries, decodeServices.decodeList,
      decodeInstance_toJson]
  refine ⟨hd, ?_, ?_, rfl, ?_⟩
  · rw [getInstances, lookup_mergeRemoteState _ hd]; rfl
  · rw [getInstances, lookup_mergeRemoteState _ hd]; rfl
  · rw [getInstances, lookup_mergeRemoteState _ hd, lookup_mergeRemoteState _ hd]; rfl

end Service

end FluxGate.Discovery
