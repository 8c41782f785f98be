import FluxGate.Proxy.Server
import FluxGate.Discovery.Registry

/-!
# What the registry admits, and by which path

`handleServiceRegistration` checks an instance before it calls `Register`: non-empty `ID`,
`Service` and `Address`, a nonzero `Port`, a service name that is not reserved. Nothing checks
the `Port` against `[1, 65535]`, and the gossip receive paths `NotifyMsg` and
`MergeRemoteState` check nothing at all; through the control API alone, every instance held
has passed the checks. A register delta carries its `Port` through `float64` on the way to a
peer, so a peer stores an accepted `Port` past `2^53` rounded.
-/

namespace FluxGate.Proxy

open Discovery

/-- What `handleServiceRegistration` checks of an instance before it registers it. -/
def Admitted (inst : ServiceInstance) : Prop :=
  inst.id ≠ "" ∧ inst.service ≠ "" ∧ inst.address ≠ "" ∧ inst.port ≠ 0 ∧
    isReservedServiceName inst.service = false

instance : DecidablePred Admitted := fun inst =>
  inferInstanceAs (Decidable (inst.id ≠ "" ∧ inst.service ≠ "" ∧ inst.address ≠ "" ∧ inst.port ≠ 0 ∧
    isReservedServiceName inst.service = false))

theorem handleServiceRegistration_cases (d : Service) (method : String) (body : Payload) :
    (handleServiceRegistration d method body).2 = (d, []) ∨
      ∃ inst, Admitted inst ∧ (handleServiceRegistration d method body).2 = d.register inst := by
  unfold handleServiceRegistration
  split
  · exact .inl rfl
  · split
    · next inst _ =>
      split
      · exact .inl rfl
      · split
        · exact .inl rfl
        · next h₁ h₂ =>
          simp only [not_or] at h₁
          exact .inr ⟨inst, ⟨h₁.1, h₁.2.1, h₁.2.2.1, h₁.2.2.2, by simpa using h₂⟩, rfl⟩
    · exact .inl rfl

theorem handleServiceRegistration_toJson {inst : ServiceInstance} (h : Admitted inst) (d : Service) :
    handleServiceRegistration d "POST" (some inst.toJson) = (.created inst, d.register inst) := by
  obtain ⟨h₁, h₂, h₃, h₄, h₅⟩ := h
  simpa [handleServiceRegistration, decodeInstance_toJson, h₁, h₂, h₃, h₅] using h₄

theorem handleServiceDeregistration_cases (d : Service) (order : List String) (method serviceID : String) :
    (handleServiceDeregistration d order method serviceID).2.1 = d ∨
      ∃ effects, d.deregister order serviceID =
        .ok ((handleServiceDeregistration d order method serviceID).2.1, effects) := by
  unfold handleServiceDeregistration
  split
  · exact .inl rfl
  · split
    · exact .inl rfl
    · split
      · next r hr => exact .inr ⟨r.2, hr⟩
      · exact .inl rfl

def Holds (P : ServiceInstance → Prop) (d : Service) : Prop :=
  ∀ k, ∀ inst ∈ d.getInstances k, P inst

variable {P : ServiceInstance → Prop} {d : Service}

theorem holds_register (hd : Holds P d) {inst : ServiceInstance} (hi : P inst) :
    Holds P (d.register inst).1 :=
  fun k x hx => (Service.mem_getInstances_put hx).elim (fun h => h.1 ▸ hi) (hd k x)

theorem holds_deregister (hd : Holds P d) {order : List String} {serviceID : String}
    {d' : Service} {effects : List Effect} (h : d.deregister order serviceID = .ok (d', effects)) :
    Holds P d' := by
  cases hr : d.removeId serviceID order with
  | none => simp [Service.deregister, hr] at h
  | some s₁ =>
    obtain ⟨rfl, -⟩ : s₁ = d' ∧ _ := by simpa [Service.deregister, hr] using h
    exact fun k x hx => hd k x (Service.mem_getInstances_of_removeId hr hx)

/-- An instance the control API accepts, whose `Port` is `2^53 + 1`. -/
def bigPort : ServiceInstance := ⟨"a", "s", "h", 9007199254740993, StrMap.empty⟩

theorem ofLit_bigPort : Float64.ofLit (encodeInt bigPort.port) = some ⟨false, 2 ^ 52, 1⟩ := by
  decide

theorem marshal_two_pow_53 : (⟨false, 2 ^ 52, 1⟩ : Float64).marshal = .int false 9007199254740992 := by
  decide

theorem intThroughAny_bigPort : intThroughAny (encodeInt bigPort.port) = .ok 9007199254740992 := by
  rw [intThroughAny, ofLit_bigPort]
  simp only [marshal_two_pow_53]
  rfl

/-- The control API accepts `bigPort`, and the register delta its `Register` queues makes every
peer store it with `Port` `2^53`, where the local `Register` stores `2^53 + 1`. -/
theorem register_delta_rounds_port (d : Service) (order : List String) :
    handleServiceRegistration d "POST" (some bigPort.toJson) = (.created bigPort, d.register bigPort) ∧
    (d.notifyMsg order (some (Service.registerDelta bigPort))).1 =
      d.put { bigPort with port := 9007199254740992 } ∧
    (d.notifyMsg order (some (Service.registerDelta bigPort))).1.getInstances "s" ≠
      (d.register bigPort).1.getInstances "s" := by
  have hpeer : (d.notifyMsg order (some (Service.registerDelta bigPort))).1 =
      d.put { bigPort with port := 9007199254740992 } := by
    rw [Service.notifyMsg_registerDelta, intThroughAny_bigPort]
  refine ⟨handleServiceRegistration_toJson (by decide) d, hpeer, fun h => ?_⟩
  rw [hpeer] at h
  simp only [Service.register, Service.getInstances_put, show bigPort.service = "s" from rfl,
    if_true] at h
  exact absurd (congrArg ServiceInstance.port (upsert_inj h rfl)) (by decide)

namespace Admission

/-- The inputs of a registry: requests to the control API, with any method, body and `id`,
and, when `gossip` holds, any payload from a peer. -/
inductive Step (gossip : Bool) : Service → Service → Prop
  | register (d : Service) (method : String) (body : Payload) :
      Step gossip d (handleServiceRegistration d method body).2.1
  | deregister (d : Service) (order : List String) (horder : order.Perm d.services.keys)
      (method serviceID : String) :
      Step gossip d (handleServiceDeregistration d order method serviceID).2.1
  | notifyMsg (d : Service) (order : List String) (horder : order.Perm d.services.keys)
      (msg : Payload) (hgossip : gossip = true) : Step gossip d (d.notifyMsg order msg).1
  | mergeRemoteState (d : Service) (buf : Payload) (hgossip : gossip = true) :
      Step gossip d (d.mergeRemoteState buf).1

inductive Reachable (gossip : Bool) : Service → Prop
  | empty : Reachable gossip Service.empty
  | step {d d' : Service} : Reachable gossip d → Step gossip d d' → Reachable gossip d'

theorem holds_admitted {d : Service} (h : Reachable false d) : Holds Admitted d := by
  induction h with
  | empty => intro k inst hi; simp at hi
  | step _ hs ih =>
    cases hs with
    | register method body =>
      rcases handleServiceRegistration_cases _ method body with h | ⟨inst, hi, h⟩ <;> rw [h]
      · exact ih
      · exact holds_register ih hi
    | deregister order _ method serviceID =>
      rcases handleServiceDeregistration_cases _ order method serviceID with h | ⟨effects, h⟩
      · rw [h]; exact ih
      · exact holds_deregister ih h
    | notifyMsg _ _ _ hgossip => exact absurd hgossip Bool.false_ne_true
    | mergeRemoteState _ hgossip => exact absurd hgossip Bool.false_ne_true

/-- Through the control API alone, every instance the registry holds passed the checks of
`handleServiceRegistration`: a non-empty `ID`, `Service` and `Address`, a nonzero `Port`, and
a service name that is not reserved and does not begin with `_`. -/
theorem api_admits_checked_only (d : Service) (h : Reachable false d) :
    ∀ k, ∀ inst ∈ d.getInstances k, inst.id ≠ "" ∧ inst.address ≠ "" ∧ inst.service ≠ "" ∧
      inst.service ∉ reservedServiceNames ∧ hasPrefix inst.service "_" = false ∧ inst.port ≠ 0 := by
  intro k inst hi
  obtain ⟨h₁, h₂, h₃, h₄, h₅⟩ := holds_admitted h k inst hi
  simp only [isReservedServiceName, Bool.or_eq_false_iff] at h₅
  exact ⟨h₁, h₃, h₂, by simpa using h₅.1, h₅.2, h₄⟩

theorem api_admits_checked_only_bigPort :
    Reachable false (handleServiceRegistration Service.empty "POST" (some bigPort.toJson)).2.1 ∧
    ∀ k, ∀ inst ∈ (handleServiceRegistration Service.empty "POST" (some bigPort.toJson)).2.1.getInstances k,
      inst.id ≠ "" ∧ inst.address ≠ "" ∧ inst.service ≠ "" ∧
      inst.service ∉ reservedServiceNames ∧ hasPrefix inst.service "_" = false ∧ inst.port ≠ 0 :=
  have h : Reachable false (handleServiceRegistration Service.empty "POST" (some bigPort.toJson)).2.1 :=
    .step .empty (.register _ _ _)
  ⟨h, api_admits_checked_only _ h⟩

/-- An instance the control API accepts with `Port` 70000. -/
def farPort : ServiceInstance := ⟨"a", "s", "h", 70000, StrMap.empty⟩

/-- An instance no check passes: empty `ID` and `Address`, the reserved service name `_x`. -/
def unchecked : ServiceInstance := ⟨"", "_x", "", 1, StrMap.empty⟩

theorem marshal_one : (⟨false, 2 ^ 52, -52⟩ : Float64).marshal = .int false 1 := by decide

theorem intThroughAny_one : intThroughAny (encodeInt unchecked.port) = .ok 1 := by
  have h : Float64.ofLit (encodeInt unchecked.port) = some ⟨false, 2 ^ 52, -52⟩ := by decide
  rw [intThroughAny, h]
  simp only [marshal_one]
  rfl

/-- The control API admits a `Port` past 65535, and a register delta from a peer admits an
instance that fails every check. -/
theorem registry_admits_unchecked :
    Reachable true (handleServiceRegistration Service.empty "POST" (some farPort.toJson)).2.1 ∧
      farPort ∈ (handleServiceRegistration Service.empty "POST" (some farPort.toJson)).2.1.getInstances "s" ∧
      65535 < farPort.port.toInt ∧
    Reachable true (Service.empty.notifyMsg [] (some (Service.registerDelta unchecked))).1 ∧
      unchecked ∈ (Service.empty.notifyMsg [] (some (Service.registerDelta unchecked))).1.getInstances "_x" ∧
      unchecked.id = "" ∧ unchecked.address = "" ∧ hasPrefix unchecked.service "_" = true := by
  refine ⟨.step .empty (.register _ _ _), ?_, by decide,
    .step .empty (.notifyMsg _ [] (by exact .nil) _ rfl), ?_, rfl, rfl, by decide⟩
  · rw [handleServiceRegistration_toJson (by decide)]
    decide
  · rw [Service.notifyMsg_registerDelta, intThroughAny_one]
    decide

end Admission

end FluxGate.Proxy
