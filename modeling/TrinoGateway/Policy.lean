/-
  TrinoGateway.Policy — the check of the configuration at start (`src/policy.rs`). `classify`
  puts the triple of authentication, TLS and listen address into one of four postures or
  refuses it, `validate_trino_posture` refuses passwords for a Trino behind plain HTTP that
  were not asked for.

  Parsing an address and resolving a name are the system's (`Sockets`). A listener is bound
  to what the listen address resolves to (`toSocketAddrs`), and that is taken to be the same
  when it is checked and when it is bound. The log lines are left out.

  Proved: `validate_meets`, that an accepted configuration is what its posture says, and
  `validate_trino`, that it sends no password over plain HTTP without leave.
-/

import TrinoGateway.Intercept

namespace TrinoGateway.Policy

open TrinoGateway.Lib

/-! ## Configuration and addresses -/

/-- The flags, without `max_connections`. -/
structure Config extends Intercept.Config where
  listenAddr : Text
  tlsCert : Option Text
  tlsKey : Option Text
  trinoHost : Text
  trinoPort : UInt16
  trinoUser : Text
  trinoSsl : Bool
  trinoTlsNoVerify : Bool
  trinoAllowPlaintextAuth : Bool
  auth : Bool
  allowInsecureListener : Bool

inductive IpAddr where
  | v4 (a b c d : UInt8)
  | v6 (address : BitVec 128)
  deriving DecidableEq, Repr

/-- `127.0.0.0/8` and `::1` -/
def IpAddr.isLoopback : IpAddr → Bool
  | .v4 a _ _ _ => a == 127
  | .v6 address => address == 1

structure SocketAddr where
  ip : IpAddr
  port : UInt16
  deriving DecidableEq, Repr

structure Sockets where
  parse : Text → Option SocketAddr
  lookupHost : Text → Except Text (List SocketAddr)

/-- What a listener with this address is bound to. -/
def toSocketAddrs (S : Sockets) (addr : Text) : Except Text (List SocketAddr) :=
  match S.parse addr with
  | some parsed => .ok [parsed]
  | none => S.lookupHost addr

/-! ## Postures -/

/-- An error with its context first. -/
abbrev PolicyResult (α : Type) := Except (List Text) α

def listenAddrIsLoopback (S : Sockets) (addr : Text) : PolicyResult Bool :=
  match S.parse addr with
  | some parsed => .ok parsed.ip.isLoopback
  | none =>
    match toSocketAddrs S addr with
    | .error cause => .error ["invalid --listen-addr: ".toList ++ addr, cause]
    | .ok resolved =>
      if resolved.isEmpty then .error ["--listen-addr ".toList ++ addr ++ " did not resolve to any address".toList]
      else .ok (resolved.all (·.ip.isLoopback))

inductive AuthPosture where
  | disabledLoopback
  | disabledOpenBind
  | cleartextRequiresTls
  | cleartextLoopback
  deriving DecidableEq, Repr

def openBindRefused (addr : Text) : Text :=
  "auth is disabled and the listen address (".toList ++ addr ++
    (") is not loopback. That combination would expose Trino to every network-reachable client " ++
      "without authentication. Pick one of the following: " ++
      "(a) bind to 127.0.0.1 / [::1] / localhost for local development; " ++
      "(b) enable auth with \x60--auth\x60 plus TLS via \x60--tls-cert\x60 and \x60--tls-key\x60; " ++
      "(c) explicitly opt in to unauthenticated network access with " ++
      "\x60--allow-insecure-listener\x60 (only when Trino itself authenticates " ++
      "or the network is otherwise trusted).").toList

def cleartextRefused (addr : Text) : Text :=
  "--auth on non-loopback bind (".toList ++ addr ++
    (") requires TLS. Set --tls-cert and --tls-key, " ++
      "or bind to 127.0.0.1 / [::1] / localhost for dev.").toList

def classify (S : Sockets) (config : Config) : PolicyResult AuthPosture :=
  if !config.auth then
    (listenAddrIsLoopback S config.listenAddr).bind fun loopback =>
      if loopback then .ok .disabledLoopback
      else if config.allowInsecureListener then .ok .disabledOpenBind
      else .error [openBindRefused config.listenAddr]
  else if config.tlsCert.isSome && config.tlsKey.isSome then .ok .cleartextRequiresTls
  else
    (listenAddrIsLoopback S config.listenAddr).bind fun loopback =>
      if loopback then .ok .cleartextLoopback else .error [cleartextRefused config.listenAddr]

def plaintextAuthRefused : Text :=
  ("--auth requires either --trino-ssl (HTTPS to Trino) or " ++
    "--trino-allow-plaintext-auth (forward credentials over plain HTTP). " ++
    "Without one, the Trino client will refuse to send the password and " ++
    "every authenticated PG connection will fail.").toList

def validateTrinoPosture (config : Config) : PolicyResult Unit :=
  if config.auth && !config.trinoSsl && !config.trinoAllowPlaintextAuth then .error [plaintextAuthRefused] else .ok ()

def validate (S : Sockets) (config : Config) : PolicyResult AuthPosture :=
  (classify S config).bind fun posture => (validateTrinoPosture config).map fun _ => posture

/-! ## What a posture means -/

variable {S : Sockets} {config : Config} {posture : AuthPosture} {addrs : List SocketAddr}

def AllLoopback (addrs : List SocketAddr) : Prop := ∀ a ∈ addrs, a.ip.isLoopback = true

def AuthPosture.Meets (config : Config) (addrs : List SocketAddr) : AuthPosture → Prop
  | .disabledLoopback => config.auth = false ∧ AllLoopback addrs
  | .disabledOpenBind => config.auth = false ∧ config.allowInsecureListener = true
  | .cleartextRequiresTls => config.auth = true ∧ config.tlsCert.isSome = true ∧ config.tlsKey.isSome = true
  | .cleartextLoopback => config.auth = true ∧ AllLoopback addrs

theorem allLoopback_of_listenAddr {addr : Text} (h : listenAddrIsLoopback S addr = .ok true)
    (haddrs : toSocketAddrs S addr = .ok addrs) : AllLoopback addrs := by
  unfold listenAddrIsLoopback at h
  cases hparse : S.parse addr with
  | some parsed =>
    rw [toSocketAddrs, hparse, Except.ok.injEq] at haddrs
    rw [hparse] at h
    rw [← haddrs]
    exact List.forall_mem_singleton.mpr (Except.ok.inj h)
  | none =>
    simp only [hparse, haddrs] at h
    split_ifs at h
    exact List.all_eq_true.mp (Except.ok.inj h)

theorem bind_ok {α β : Type} {x : PolicyResult α} {f : α → PolicyResult β} {b : β} (h : x.bind f = .ok b) :
    ∃ a, x = .ok a ∧ f a = .ok b := by
  cases x with
  | error e => cases h
  | ok a => exact ⟨a, rfl, h⟩

theorem classify_meets (h : classify S config = .ok posture) (haddrs : toSocketAddrs S config.listenAddr = .ok addrs) :
    posture.Meets config addrs := by
  unfold classify at h
  cases hauth : config.auth with
  | false =>
    rw [hauth, Bool.not_false, if_pos rfl] at h
    obtain ⟨loopback, hloop, hrest⟩ := bind_ok h
    split_ifs at hrest with htrue hopen
    · cases hrest
      exact ⟨hauth, allLoopback_of_listenAddr (by rw [hloop, htrue]) haddrs⟩
    · cases hrest
      exact ⟨hauth, hopen⟩
  | true =>
    rw [hauth, Bool.not_true, if_neg Bool.false_ne_true] at h
    by_cases htls : (config.tlsCert.isSome && config.tlsKey.isSome) = true
    · rw [if_pos htls] at h
      cases h
      exact ⟨hauth, Bool.and_eq_true_iff.mp htls⟩
    · rw [if_neg htls] at h
      obtain ⟨loopback, hloop, hrest⟩ := bind_ok h
      split_ifs at hrest with htrue
      cases hrest
      exact ⟨hauth, allLoopback_of_listenAddr (by rw [hloop, htrue]) haddrs⟩

theorem validate_ok (h : validate S config = .ok posture) :
    classify S config = .ok posture ∧ validateTrinoPosture config = .ok () := by
  obtain ⟨classified, hclassify, hrest⟩ := bind_ok h
  cases htrino : validateTrinoPosture config with
  | error e =>
    rw [htrino] at hrest
    cases hrest
  | ok _ =>
    rw [htrino] at hrest
    cases hrest
    exact ⟨hclassify, rfl⟩

theorem validate_meets (h : validate S config = .ok posture) (haddrs : toSocketAddrs S config.listenAddr = .ok addrs) :
    posture.Meets config addrs :=
  classify_meets (validate_ok h).1 haddrs

theorem validate_trino (h : validate S config = .ok posture) (hauth : config.auth = true) (hssl : config.trinoSsl = false) :
    config.trinoAllowPlaintextAuth = true := by
  have htrino := (validate_ok h).2
  rw [validateTrinoPosture, hauth, hssl] at htrino
  by_contra hno
  rw [Bool.not_eq_true] at hno
  rw [hno] at htrino
  cases htrino

end TrinoGateway.Policy
