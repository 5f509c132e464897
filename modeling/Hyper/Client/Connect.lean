import Hyper.Basic

/-!
# Setting up a TCP connection attempt (`ConnectingTcp::new`, `client/connect/http.rs`)

`HttpConnector::call_async` resolves the host and hands the addresses to `ConnectingTcp::new`.
With happy eyeballs on, `SocketAddrs::split_by_preference` splits them into a preferred group and
a fallback group: by family if a local address of one family is bound, and otherwise by whether
each address has the family of the first.  Each group becomes a `ConnectingTcpRemote`, whose
per-address timeout is the connection timeout divided by the size of its group,
`t / (addrs.len() as u32)`.

`Duration / u32` panics on a divisor of zero, and nothing keeps the group from being empty: a
resolver may return no address at all, and a bound local address filters out every address of
the other family.  With a connection timeout set, `ConnectingTcp::new` then panics
(`connecting_tcp_panics_on_empty_group`).  `new_eq_none_iff` says exactly when: a timeout is set
and a group it builds has a size that is zero as a `u32`.  Otherwise every remote gets the
timeout divided by the size of its own group (`new_remote_timeout`), and the two groups
partition the addresses (`split_by_preference_perm`).

A `Duration` is its number of nanoseconds; `checked_div` by a `u32` is the floor of the quotient.
Addresses are kept with their family and port only, as nothing here reads more of them.
-/

set_option autoImplicit false

namespace Hyper.Client

/-- `SocketAddr`. -/
inductive SocketAddr where
  | V4 (ip : ℕ) (port : ℕ)
  | V6 (ip : ℕ) (port : ℕ)
  deriving DecidableEq, Repr

namespace SocketAddr

/-- `SocketAddr::is_ipv4`. -/
def is_ipv4 : SocketAddr → Bool
  | V4 .. => true
  | V6 .. => false

/-- `SocketAddr::is_ipv6`. -/
def is_ipv6 : SocketAddr → Bool
  | V4 .. => false
  | V6 .. => true

@[simp] theorem is_ipv4_eq_not_is_ipv6 (a : SocketAddr) : a.is_ipv4 = !a.is_ipv6 := by
  cases a <;> rfl

end SocketAddr

/-- `Duration`, in nanoseconds. -/
abbrev Duration := ℕ

/-- `Duration / u32`: `checked_div(..).expect(..)`, a panic (`none`) on zero. -/
def Duration.div (t : Duration) (n : ℕ) : Option Duration :=
  if n = 0 then none else some (t / n)

/-- `NANOS_PER_SEC`. -/
def Duration.NANOS_PER_SEC : ℕ := 1000000000

/-- `Duration::from_secs`. -/
def Duration.from_secs (secs : ℕ) : Duration := secs * Duration.NANOS_PER_SEC

/-- `Duration::from_millis`. -/
def Duration.from_millis (millis : ℕ) : Duration := millis * 1000000

/-- `Duration * u32`: `checked_mul(..).expect(..)`, a panic (`none`) when the seconds leave
`u64`. -/
def Duration.mul (t : Duration) (n : ℕ) : Option Duration :=
  if t * n / Duration.NANOS_PER_SEC < 2 ^ 64 then some (t * n) else none

/-- `SocketAddrs`. -/
structure SocketAddrs where
  iter : List SocketAddr
  deriving DecidableEq, Repr

namespace SocketAddrs

/-- `SocketAddrs::len`. -/
def len (s : SocketAddrs) : ℕ := s.iter.length

/-- `SocketAddrs::is_empty`. -/
def is_empty (s : SocketAddrs) : Bool := s.iter.isEmpty

/-- `SocketAddrs::filter`. -/
def filter (s : SocketAddrs) (p : SocketAddr → Bool) : SocketAddrs := ⟨s.iter.filter p⟩

/-- `SocketAddrs::split_by_preference`: only whether a local address is bound matters. -/
def split_by_preference (s : SocketAddrs) (local_addr_ipv4 local_addr_ipv6 : Option ℕ) :
    SocketAddrs × SocketAddrs :=
  match local_addr_ipv4, local_addr_ipv6 with
  | some _, none => (s.filter SocketAddr.is_ipv4, ⟨[]⟩)
  | none, some _ => (s.filter SocketAddr.is_ipv6, ⟨[]⟩)
  | _, _ =>
    let preferring_v6 := (s.iter.head?.map SocketAddr.is_ipv6).getD false
    let (preferred, fallback) := s.iter.partition fun addr ↦ addr.is_ipv6 == preferring_v6
    (⟨preferred⟩, ⟨fallback⟩)

/-- Without a bound local address the split loses and invents nothing. -/
theorem split_by_preference_perm (s : SocketAddrs) {l4 l6 : Option ℕ}
    (h : ¬((l4.isSome ∧ l6 = none) ∨ (l4 = none ∧ l6.isSome))) :
    ((s.split_by_preference l4 l6).1.iter ++ (s.split_by_preference l4 l6).2.iter).Perm s.iter := by
  unfold split_by_preference
  split
  · simp at h
  · simp at h
  · simpa [List.partition_eq_filter_filter, Function.comp_def] using
      List.filter_append_perm (fun addr ↦ addr.is_ipv6 == (s.iter.head?.map SocketAddr.is_ipv6).getD false) s.iter

end SocketAddrs

/-- The fields of `Config` that `ConnectingTcp::new` reads. -/
structure Config where
  connect_timeout : Option Duration
  happy_eyeballs_timeout : Option Duration
  local_address_ipv4 : Option ℕ
  local_address_ipv6 : Option ℕ
  deriving DecidableEq, Repr

/-- The configuration of `HttpConnector::new`. -/
def Config.default : Config := ⟨none, some 300000000, none, none⟩

/-- `ConnectingTcpRemote`. -/
structure ConnectingTcpRemote where
  addrs : SocketAddrs
  connect_timeout : Option Duration
  deriving DecidableEq, Repr

/-- `ConnectingTcpRemote::new`: the timeout is shared out over the addresses of the group. -/
def ConnectingTcpRemote.new (addrs : SocketAddrs) (connect_timeout : Option Duration) :
    Option ConnectingTcpRemote :=
  match connect_timeout with
  | none => some ⟨addrs, none⟩
  | some t => (t.div (addrs.len % 2 ^ 32)).map fun t ↦ ⟨addrs, some t⟩

/-- `ConnectingTcpFallback`: the delay before the fallback starts, and its remote. -/
structure ConnectingTcpFallback where
  delay : Duration
  remote : ConnectingTcpRemote
  deriving DecidableEq, Repr

/-- `ConnectingTcp`, without the reference to the configuration. -/
structure ConnectingTcp where
  preferred : ConnectingTcpRemote
  fallback : Option ConnectingTcpFallback
  deriving DecidableEq, Repr

/-- `ConnectingTcp::new`; `none` is a panic. -/
def ConnectingTcp.new (remote_addrs : SocketAddrs) (config : Config) : Option ConnectingTcp :=
  match config.happy_eyeballs_timeout with
  | some fallback_timeout =>
    let (preferred_addrs, fallback_addrs) :=
      remote_addrs.split_by_preference config.local_address_ipv4 config.local_address_ipv6
    if fallback_addrs.is_empty then
      (ConnectingTcpRemote.new preferred_addrs config.connect_timeout).map fun preferred ↦
        ⟨preferred, none⟩
    else
      (ConnectingTcpRemote.new preferred_addrs config.connect_timeout).bind fun preferred ↦
        (ConnectingTcpRemote.new fallback_addrs config.connect_timeout).map fun remote ↦
          ⟨preferred, some ⟨fallback_timeout, remote⟩⟩
  | none =>
    (ConnectingTcpRemote.new remote_addrs config.connect_timeout).map fun preferred ↦ ⟨preferred, none⟩

/-! ## When the set-up panics -/

namespace ConnectingTcpRemote

theorem new_eq_none_iff (addrs : SocketAddrs) (connect_timeout : Option Duration) :
    new addrs connect_timeout = none ↔ connect_timeout.isSome ∧ addrs.len % 2 ^ 32 = 0 := by
  cases connect_timeout with
  | none => simp [new]
  | some t =>
    simp only [new, Option.map_eq_none_iff, Duration.div, Option.isSome_some, true_and]
    split_ifs with h <;> simpa using h

/-- **The timeout of a group** is the configured one divided by the group's size, whenever that
size is not zero as a `u32`. -/
theorem new_timeout {addrs : SocketAddrs} {t : Duration} (h : addrs.len % 2 ^ 32 ≠ 0) :
    new addrs (some t) = some ⟨addrs, some (t / (addrs.len % 2 ^ 32))⟩ := by
  simpa [new, Duration.div] using h

end ConnectingTcpRemote

namespace ConnectingTcp

/-- The set-up panics exactly when a timeout is set and one of the groups it builds has a size
that is zero as a `u32`: the preferred one, or a fallback that is there at all. -/
theorem new_eq_none_iff (remote_addrs : SocketAddrs) (config : Config) :
    new remote_addrs config = none ↔ config.connect_timeout.isSome ∧
      match config.happy_eyeballs_timeout with
      | some _ =>
        let groups := remote_addrs.split_by_preference config.local_address_ipv4 config.local_address_ipv6
        groups.1.len % 2 ^ 32 = 0 ∨ (groups.2.is_empty = false ∧ groups.2.len % 2 ^ 32 = 0)
      | none => remote_addrs.len % 2 ^ 32 = 0 := by
  unfold new
  cases config.happy_eyeballs_timeout with
  | none => simp [Option.map_eq_none_iff, ConnectingTcpRemote.new_eq_none_iff]
  | some fallback_timeout =>
    dsimp only
    split_ifs with hfb
    · simp [Option.map_eq_none_iff, ConnectingTcpRemote.new_eq_none_iff, hfb]
    · -- both groups are built, the preferred one first
      simp only [Option.bind_eq_none_iff, Option.map_eq_none_iff, hfb]
      rcases hp : ConnectingTcpRemote.new (remote_addrs.split_by_preference config.local_address_ipv4
        config.local_address_ipv6).1 config.connect_timeout with _ | preferred
      · rw [ConnectingTcpRemote.new_eq_none_iff] at hp
        simp_all
      · have hp' := (ConnectingTcpRemote.new_eq_none_iff (remote_addrs.split_by_preference
          config.local_address_ipv4 config.local_address_ipv6).1 config.connect_timeout).not.mp (by simp [hp])
        simp only [ConnectingTcpRemote.new_eq_none_iff, Option.some.injEq, forall_eq', true_and]
        constructor
        · intro h
          exact ⟨h.1, .inr h.2⟩
        · rintro ⟨ht, h | h⟩
          · exact absurd ⟨ht, h⟩ hp'
          · exact ⟨ht, h⟩

/-- **Every remote gets the timeout divided by the size of its own group** when the set-up goes
through with a timeout set. -/
theorem new_remote_timeout {remote_addrs : SocketAddrs} {config : Config} {c : ConnectingTcp}
    {t : Duration} (h : new remote_addrs config = some c) (ht : config.connect_timeout = some t) :
    c.preferred.connect_timeout = some (t / (c.preferred.addrs.len % 2 ^ 32)) ∧
      ∀ fb ∈ c.fallback, fb.remote.connect_timeout = some (t / (fb.remote.addrs.len % 2 ^ 32)) := by
  have hremote : ∀ {addrs : SocketAddrs} {r : ConnectingTcpRemote},
      ConnectingTcpRemote.new addrs (some t) = some r → r.connect_timeout = some (t / (r.addrs.len % 2 ^ 32)) := by
    intro addrs r hr
    by_cases hz : addrs.len % 2 ^ 32 = 0
    · rw [(ConnectingTcpRemote.new_eq_none_iff addrs (some t)).mpr ⟨rfl, hz⟩] at hr
      cases hr
    · rw [ConnectingTcpRemote.new_timeout hz, Option.some.injEq] at hr
      rw [← hr]
  unfold new at h
  rw [ht] at h
  cases hhe : config.happy_eyeballs_timeout with
  | none =>
    rw [hhe] at h
    obtain ⟨p, hp, rfl⟩ := Option.map_eq_some_iff.mp h
    exact ⟨hremote hp, by simp⟩
  | some fallback_timeout =>
    rw [hhe] at h
    dsimp only at h
    split_ifs at h
    · obtain ⟨p, hp, rfl⟩ := Option.map_eq_some_iff.mp h
      exact ⟨hremote hp, by simp⟩
    · obtain ⟨p, hp, h'⟩ := Option.bind_eq_some_iff.mp h
      obtain ⟨r, hr, rfl⟩ := Option.map_eq_some_iff.mp h'
      exact ⟨hremote hp, by simpa using hremote hr⟩

end ConnectingTcp

theorem connecting_tcp_panics_on_empty_group (t : Duration) (ip port : ℕ) :
    ConnectingTcp.new ⟨[]⟩ { Config.default with connect_timeout := some t } = none ∧
    ConnectingTcp.new ⟨[.V6 ip port]⟩
      { Config.default with connect_timeout := some t, local_address_ipv4 := some 0 } = none ∧
    ConnectingTcp.new ⟨[]⟩ { Config.default with connect_timeout := some t, happy_eyeballs_timeout := none } =
      none := by
  refine ⟨?_, ?_, ?_⟩ <;>
    simp [ConnectingTcp.new, Config.default, SocketAddrs.split_by_preference, SocketAddrs.filter,
      SocketAddr.is_ipv4, SocketAddrs.is_empty, ConnectingTcpRemote.new, Duration.div, SocketAddrs.len]

end Hyper.Client
