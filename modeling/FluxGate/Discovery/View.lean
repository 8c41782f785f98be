import FluxGate.Discovery.WellFormed
import FluxGate.ExactIntegers

/-!
# The registry one `ID` at a time

When every `ID` lives under one service only, `svc id`, a well-formed registry is determined by
what it holds for each `ID`: `idView`. Seen so, each operation is simple. A register or
deregister delta, made locally or received through `NotifyMsg`, sets the view of its one `ID`,
and merging the `LocalState` of a peer overwrites the view of every `ID` the peer holds.
-/

namespace FluxGate.Discovery

/-- The instance a registry holds for `id`, looked up under the one service `svc id`. -/
def idView (svc : String → String) (s : Service) (id : String) : Option ServiceInstance :=
  findId id (s.getInstances (svc id))

/-- Every instance is held under the service `svc` gives its `ID`. -/
def Service.Proper (svc : String → String) (s : Service) : Prop :=
  ∀ k, ∀ inst ∈ s.getInstances k, svc inst.id = k

/-- A delta `Register` or `Deregister` queues, before it is marshalled. -/
inductive Delta
  | register (inst : ServiceInstance)
  | deregister (serviceID : String)

namespace Delta

def toJson : Delta → Json
  | register inst => Service.registerDelta inst
  | deregister serviceID => Service.deregisterDelta serviceID

def id : Delta → String
  | register inst => inst.id
  | deregister serviceID => serviceID

def value : Delta → Option ServiceInstance
  | register inst => some inst
  | deregister _ => none

def applyTo (d : Delta) (x : String) (v : Option ServiceInstance) : Option ServiceInstance :=
  if d.id = x then d.value else v

/-- A delta whose instance lives under `svc` of its `ID` and has a port `float64` holds exactly. -/
def Fits (svc : String → String) : Delta → Prop
  | register inst => inst.service = svc inst.id ∧ inst.port.toInt.natAbs < 2 ^ 53
  | deregister _ => True

end Delta

/-- The view of `x` after a sequence of deltas. -/
def catchUp (x : String) (ds : List Delta) (v : Option ServiceInstance) : Option ServiceInstance :=
  ds.foldl (fun v d => d.applyTo x v) v

@[simp] theorem catchUp_nil (x : String) (v : Option ServiceInstance) : catchUp x [] v = v := rfl

@[simp] theorem catchUp_cons (x : String) (d : Delta) (ds : List Delta) (v : Option ServiceInstance) :
    catchUp x (d :: ds) v = catchUp x ds (d.applyTo x v) := rfl

theorem catchUp_append (x : String) (ds ds' : List Delta) (v : Option ServiceInstance) :
    catchUp x (ds ++ ds') v = catchUp x ds' (catchUp x ds v) := List.foldl_append _ _ _ _

theorem catchUp_of_forall_ne {x : String} {ds : List Delta} (h : ∀ d ∈ ds, d.id ≠ x)
    (v : Option ServiceInstance) : catchUp x ds v = v := by
  induction ds generalizing v with
  | nil => rfl
  | cons d ds ih =>
    simp only [List.mem_cons, forall_eq_or_imp] at h
    simp [Delta.applyTo, h.1, ih h.2]

theorem catchUp_or {x : String} {ds : List Delta} {w t : Option ServiceInstance}
    (h : catchUp x ds w = t) : catchUp x ds (t.or w) = t := by
  induction ds generalizing w with
  | nil => subst h; cases w <;> rfl
  | cons d ds ih =>
    by_cases hd : d.id = x
    · simpa [Delta.applyTo, hd] using h
    · simpa [Delta.applyTo, hd] using ih (by simpa [Delta.applyTo, hd] using h)

namespace Service

variable {svc : String → String} {s s' t : Service} {k : String}

theorem mem_getInstances_iff (hw : s.WellFormed) (hp : s.Proper svc) (inst : ServiceInstance) :
    inst ∈ s.getInstances k ↔ inst.service = k ∧ idView svc s inst.id = some inst := by
  constructor
  · intro h
    refine ⟨(hw k).1 inst h, ?_⟩
    rw [idView, hp k inst h]
    exact findId_of_mem (hw k).2 h
  · rintro ⟨rfl, h⟩
    have hm := (mem_of_findId_eq_some h).1
    rw [(hw _).1 inst hm]
    exact hm

theorem idView_empty (x : String) : idView svc empty x = none := rfl

theorem proper_empty : empty.Proper svc := fun _ _ h => absurd h (List.not_mem_nil _)

theorem Proper.put (hp : s.Proper svc) {inst : ServiceInstance} (hi : inst.service = svc inst.id) :
    (s.put inst).Proper svc :=
  fun k x hx => (mem_getInstances_put hx).elim (fun ⟨hx, hk⟩ => hx ▸ hi.symm.trans hk) (hp k x)

theorem idView_put {inst : ServiceInstance} (hi : inst.service = svc inst.id) (x : String) :
    idView svc (s.put inst) x = (Delta.register inst).applyTo x (idView svc s x) := by
  simp only [idView, getInstances_put, Delta.applyTo, Delta.id, Delta.value]
  by_cases hx : inst.id = x
  · subst hx; simp [hi]
  · by_cases hk : inst.service = svc x
    · simp [hk, hx, findId_upsert_ne hx]
    · simp [hk, hx]

theorem Proper.removeId (hp : s.Proper svc) {serviceID : String} {order : List String}
    (hr : s.removeId serviceID order = some s') : s'.Proper svc :=
  fun k x hx => hp k x (mem_getInstances_of_removeId hr hx)

theorem idView_removeId (hw : s.WellFormed) (hp : s.Proper svc) {serviceID : String}
    {order : List String} (hr : s.removeId serviceID order = some s') (x : String) :
    idView svc s' x = (Delta.deregister serviceID).applyTo x (idView svc s x) := by
  obtain ⟨-, k, -, l, -, -, hl, rfl⟩ := removeId_eq_some hr
  obtain ⟨a, y, b, hk, -, hy, -⟩ := dropId_eq_some hl
  have hsvc : svc serviceID = k := hy ▸ hp k y (by simp [hk])
  simp only [idView, getInstances_insert, Delta.applyTo, Delta.id, Delta.value]
  by_cases hx : serviceID = x
  · subst hx
    simpa [hsvc, findId_eq_none_iff] using not_mem_ids_dropId (hw k).2 hl
  · by_cases hkx : k = svc x
    · simp [hkx, hx, findId_dropId_ne (hkx ▸ hl) hx]
    · simp [hkx, hx]

theorem idView_of_removeId_eq_none {serviceID : String} {order : List String}
    (horder : order.Perm s.services.keys) (hr : s.removeId serviceID order = none) :
    idView svc s serviceID = none :=
  findId_eq_none_iff.mpr fun x hx =>
    removeId_eq_none_iff.mp hr _ (mem_order_iff horder _ ⟨x, hx, rfl⟩) x hx

variable {order : List String} {d : Delta}

theorem notifyMsg_toJson_register {inst : ServiceInstance} (hport : inst.port.toInt.natAbs < 2 ^ 53) :
    (s.notifyMsg order (some (Delta.register inst).toJson)).1 = s.put inst := by
  simp [Delta.toJson, notifyMsg_registerDelta, intThroughAny_encodeInt hport]

theorem Proper.notifyMsg_toJson (hp : s.Proper svc) (order : List String) (hd : d.Fits svc) :
    (s.notifyMsg order (some d.toJson)).1.Proper svc := by
  cases d with
  | register inst => rw [notifyMsg_toJson_register hd.2]; exact hp.put hd.1
  | deregister serviceID =>
    rw [Delta.toJson, notifyMsg_deregisterDelta]
    cases hr : s.removeId serviceID order
    · exact hp
    · exact hp.removeId hr

theorem idView_notifyMsg_toJson (hw : s.WellFormed) (hp : s.Proper svc)
    (horder : order.Perm s.services.keys) (hd : d.Fits svc) (x : String) :
    idView svc (s.notifyMsg order (some d.toJson)).1 x = d.applyTo x (idView svc s x) := by
  cases d with
  | register inst => rw [notifyMsg_toJson_register hd.2, idView_put hd.1]
  | deregister serviceID =>
    rw [Delta.toJson, notifyMsg_deregisterDelta]
    cases hr : s.removeId serviceID order with
    | some s' => exact idView_removeId hw hp hr x
    | none =>
      have : idView svc s serviceID = none := idView_of_removeId_eq_none horder hr
      by_cases hx : serviceID = x
      · subst hx; simp [Delta.applyTo, Delta.id, Delta.value, this]
      · simp [Delta.applyTo, Delta.id, hx]

theorem getInstances_mergeLocalState (ht : t.WellFormed) (k : String) :
    (s.mergeRemoteState (some t.localState)).1.getInstances k =
      (t.getInstances k).foldl (fun acc i => upsert i acc) (s.getInstances k) := by
  rw [getInstances, lookup_mergeRemoteState s (decodeServices_localState t)]
  cases hk : t.services.get? k with
  | none => simp [getInstances, lookup, hk]
  | some v =>
    rw [mergeValue_getD (fun L hL => by simpa [getInstances, lookup, hk, hL] using (ht k).2)]
    simp [getInstances, lookup, hk]

theorem Proper.mergeLocalState (hp : s.Proper svc) (ht : t.WellFormed) (htp : t.Proper svc) :
    (s.mergeRemoteState (some t.localState)).1.Proper svc := by
  intro k x hx
  rw [getInstances_mergeLocalState ht] at hx
  exact (mem_foldl_upsert hx).elim (htp k x) (hp k x)

theorem idView_mergeLocalState (ht : t.WellFormed) (x : String) :
    idView svc (s.mergeRemoteState (some t.localState)).1 x = (idView svc t x).or (idView svc s x) := by
  rw [idView, getInstances_mergeLocalState ht, findId_foldl_upsert_or (ht _).2]
  rfl

end Service

end FluxGate.Discovery
