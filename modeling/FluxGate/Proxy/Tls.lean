import FluxGate.Config
import FluxGate.Proxy.Server

/-!
# `proxy.TLSManager`: the certificate the server serves

The manager keeps the TLS section it was last given, the certificate it loaded, and the
listeners `Subscribe` added, each named by a number. `tls.LoadX509KeyPair` reads two files and
is a parameter, `loadX509KeyPair`, giving a certificate of a type `Cert` the model does not look
into, or the error's text. `GetTLSConfig` wraps the certificate in a `tls.Config` whose other
settings are constants; the model keeps the certificate, `none` for nil. A listener call is what
`notifyListeners` starts with `go fn(tlsConfig)`. The lock is the subject of `Locking`; here
every method is one step, as if it returned.
-/

namespace FluxGate.Proxy

/-- The section when it names both files, the test of `NewTLSManager` and `UpdateConfig`:
`tlsConfig != nil && tlsConfig.CertFile != "" && tlsConfig.KeyFile != ""`. -/
def certificateFiles : Option TLS → Option TLS
  | some t => if t.certFile ≠ "" ∧ t.keyFile ≠ "" then some t else none
  | none => none

structure TLSManager (Cert : Type) where
  config : Option TLS
  cert : Option Cert
  onChange : List Nat
  deriving DecidableEq, Repr

namespace TLSManager

variable {Cert : Type} (loadX509KeyPair : String → String → Except String Cert)

def getTLSConfig (m : TLSManager Cert) : Option Cert := m.cert

def isEnabled (m : TLSManager Cert) : Bool := m.cert.isSome

def subscribe (m : TLSManager Cert) (fn : Nat) : TLSManager Cert :=
  { m with onChange := m.onChange ++ [fn] }

/-- `notifyListeners()`: one call per listener, with what `GetTLSConfig` returns. -/
def notifyListeners (m : TLSManager Cert) : List (Nat × Option Cert) :=
  m.onChange.map fun fn => (fn, m.getTLSConfig)

/-- `NewTLSManager(tlsConfig)`: the certificate is loaded when the section names both files. -/
def new (tlsConfig : Option TLS) : Except String (TLSManager Cert) :=
  match certificateFiles tlsConfig with
  | none => .ok ⟨tlsConfig, none, []⟩
  | some t =>
    match loadX509KeyPair t.certFile t.keyFile with
    | .error err => .error ("loading TLS certificate: " ++ err)
    | .ok cert => .ok ⟨tlsConfig, some cert, []⟩

/-- `UpdateConfig(tlsConfig)`: the error, the manager after it, and the listener calls it
starts. A section without both files disables TLS; otherwise the section is stored before the
certificate is loaded, and a failed load keeps the old certificate. -/
def updateConfig (m : TLSManager Cert) (tlsConfig : Option TLS) :
    Except String Unit × TLSManager Cert × List (Nat × Option Cert) :=
  match certificateFiles tlsConfig with
  | none =>
    let m' := { m with config := none, cert := none }
    (.ok (), m', m'.notifyListeners)
  | some t =>
    let m' := { m with config := tlsConfig }
    match loadX509KeyPair t.certFile t.keyFile with
    | .error err => (.error ("loading new TLS certificate: " ++ err), m', [])
    | .ok cert =>
      let m'' := { m' with cert := some cert }
      (.ok (), m'', m''.notifyListeners)

theorem updateConfig_eq_ok_iff (m : TLSManager Cert) (tlsConfig : Option TLS) :
    (m.updateConfig loadX509KeyPair tlsConfig).1 = .ok () ↔
      ∀ t, certificateFiles tlsConfig = some t →
        ∃ cert, loadX509KeyPair t.certFile t.keyFile = .ok cert := by
  unfold updateConfig
  split
  · simp_all
  · next t ht =>
    split <;> simp_all

end TLSManager

/-- `New(cfg, discovery, port)`: the TLS manager of the config's section, then the server. -/
def new {Cert : Type} (loadX509KeyPair : String → String → Except String Cert) (cfg : Config) :
    Except String (Server × TLSManager Cert) :=
  match TLSManager.new loadX509KeyPair cfg.tls with
  | .error err => .error ("creating TLS manager: " ++ err)
  | .ok m => .ok (Server.new, m)

theorem new_eq_error_iff {Cert : Type} (loadX509KeyPair : String → String → Except String Cert)
    (cfg : Config) (msg : String) :
    new loadX509KeyPair cfg = .error msg ↔ ∃ t err, certificateFiles cfg.tls = some t ∧
      loadX509KeyPair t.certFile t.keyFile = .error err ∧
      msg = "creating TLS manager: " ++ ("loading TLS certificate: " ++ err) := by
  unfold new TLSManager.new
  cases certificateFiles cfg.tls with
  | none => simp
  | some t =>
    cases h : loadX509KeyPair t.certFile t.keyFile with
    | error err => simp [h, eq_comm]
    | ok cert => simp [h]

end FluxGate.Proxy
