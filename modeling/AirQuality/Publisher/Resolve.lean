import Mathlib.Tactic.IntervalCases
import AirQuality.Publisher.Mqpub

/-!
# Resolving the gateway (`_resolve_v6addr`)

`mqpub_con` takes the name of a host. An IPv6 literal is parsed; any other name goes to the DNS,
whose IPv4 address is stored as the last four bytes of an address `::ffff:a.b.c.d`, put together by
writes into the 16 bytes that the parser left behind (`put_v4Mapped`).

The name that goes to the DNS is `MQTTSN_GATEWAY_HOST`, whatever host the caller asks for. The
endpoint is that of the caller's host for every resolver only if the host is a literal or that very
name (`endpointOfHost_forall_iff`), and for a given resolver only if it answers both names alike
(`endpointOfHost_iff`).
-/

namespace AirQuality

/-- `MODULE_SOCK_DNS`, `DNS_RESOLVER` and `MQTTSN_GATEWAY_HOST`, set at compile time. -/
structure DnsConfig where
  sockDns : Bool
  dnsResolver : Option (List Char)
  gatewayHost : List Char

/-- With `USE_DNS`, and the default gateway of the header. -/
def DnsConfig.useDns : DnsConfig where
  sockDns := true
  dnsResolver := some "2001:4860:4860::8888".toList
  gatewayHost := "lab-pc.ssvl.kth.se".toList

/-- How names are looked up. `ipv6_addr_from_str` says whether a name is a literal, and leaves 16
bytes; `sock_dns_query` gives a result, negative on failure, and an IPv4 address. -/
structure Names where
  ipv6AddrFromStr : List Char → Bool × Ipv6Addr
  sockDnsQuery : List Char → Int × Vector UInt8 4

/-- The bytes of the address with `bs` written at offset `off`. -/
def putBytes (addr : Ipv6Addr) (off : ℕ) (bs : List UInt8) : Ipv6Addr :=
  Vector.ofFn fun k =>
    if off ≤ k.val then (bs[k.val - off]?).getD (addr.get k) else addr.get k

/-- `DNS_RESOLVER`, if it is set, is a literal. -/
def DnsConfig.resolverOk (cfg : DnsConfig) (names : Names) : Bool :=
  cfg.dnsResolver.all fun a => (names.ipv6AddrFromStr a).1

/-- **`_resolve_v6addr`.** -/
def resolveV6addr (cfg : DnsConfig) (names : Names) (host : List Char) : Resolution :=
  let literal := names.ipv6AddrFromStr host
  let result := literal.2
  if literal.1 then ⟨0, result⟩
  else if cfg.sockDns = false then ⟨-1, result⟩
  else if cfg.resolverOk names = false then ⟨-1, result⟩
  else
    let result := putBytes result 0 [0, 0, 0, 0, 0, 0, 0, 0]
    let result := putBytes result 8 [0, 0]
    let result := putBytes result 10 [0xff, 0xff]
    -- the query is not for `host`
    let query := names.sockDnsQuery cfg.gatewayHost
    let res := query.1
    if res < 0 then ⟨res, result⟩ else ⟨res, putBytes result 12 query.2.toList⟩

/-- **`mqpub_con`** of a host, where `con` is what `emcute_con` would return. -/
def mqpubConHost (cfg : DnsConfig) (names : Names) (host : List Char) (port : UInt16) (con : Int)
    (stats : MqttsnStats) : Outcome :=
  mqpubCon port (resolveV6addr cfg names host) con stats

/-! ### Addresses -/

/-- `::ffff:a.b.c.d`. -/
def v4Mapped (ip : Vector UInt8 4) : Ipv6Addr :=
  #v[0, 0, 0, 0, 0, 0, 0, 0, 0, 0, 0xff, 0xff, ip.get 0, ip.get 1, ip.get 2, ip.get 3]

theorem get_putBytes (addr : Ipv6Addr) (off : ℕ) (bs : List UInt8) (k : Fin 16) :
    (putBytes addr off bs).get k
      = if off ≤ k.val then (bs[k.val - off]?).getD (addr.get k) else addr.get k := by
  show (Vector.ofFn _)[k.val] = _
  rw [Vector.getElem_ofFn]

/-- The four writes leave nothing of what was there. -/
theorem put_v4Mapped (addr : Ipv6Addr) (ip : Vector UInt8 4) :
    putBytes (putBytes (putBytes (putBytes addr 0 [0, 0, 0, 0, 0, 0, 0, 0]) 8 [0, 0]) 10
      [0xff, 0xff]) 12 ip.toList = v4Mapped ip := by
  have h_ip : ip.toList = [ip.get 0, ip.get 1, ip.get 2, ip.get 3] := by
    obtain ⟨⟨bytes⟩, h_size⟩ := ip
    match bytes, h_size with
    | [a, b, c, d], _ => rfl
  rw [h_ip]
  ext k hk : 1
  show (putBytes _ 12 _).get ⟨k, hk⟩ = (v4Mapped ip).get ⟨k, hk⟩
  rw [get_putBytes, get_putBytes, get_putBytes, get_putBytes]
  interval_cases k <;> rfl

theorem v4Mapped_inj {ip ip' : Vector UInt8 4} (h : v4Mapped ip = v4Mapped ip') : ip = ip' := by
  have h_get : ∀ k : Fin 16, (v4Mapped ip).get k = (v4Mapped ip').get k := fun k => by rw [h]
  ext k hk : 1
  have h_k := h_get ⟨12 + k, by omega⟩
  interval_cases k <;> exact h_k

/-! ### What is resolved -/

section

variable (cfg : DnsConfig) (names : Names) (host : List Char)

/-- `_resolve_v6addr` finds an address. -/
def Resolves : Prop :=
  (names.ipv6AddrFromStr host).1 = true ∨
    (cfg.sockDns = true ∧ cfg.resolverOk names = true ∧ 0 ≤ (names.sockDnsQuery cfg.gatewayHost).1)

/-- A query that is made and answered gives the mapped address. -/
theorem resolveV6addr_query (h_literal : (names.ipv6AddrFromStr host).1 = false)
    (h_dns : cfg.sockDns = true) (h_ok : cfg.resolverOk names = true)
    (h_res : 0 ≤ (names.sockDnsQuery cfg.gatewayHost).1) :
    resolveV6addr cfg names host = ⟨(names.sockDnsQuery cfg.gatewayHost).1,
      v4Mapped (names.sockDnsQuery cfg.gatewayHost).2⟩ := by
  unfold resolveV6addr
  simp only [h_literal, h_dns, h_ok, Bool.false_eq_true, if_false, Bool.true_eq_false,
    if_neg (Int.not_lt.mpr h_res)]
  rw [put_v4Mapped]

/-- The result is negative if nothing is found. -/
theorem resolveV6addr_res_neg : (resolveV6addr cfg names host).res < 0 ↔
    ¬ Resolves cfg names host := by
  unfold Resolves
  by_cases h_literal : (names.ipv6AddrFromStr host).1 = true
  · simp [resolveV6addr, h_literal]
  by_cases h_dns : cfg.sockDns = true
  · by_cases h_ok : cfg.resolverOk names = true
    · by_cases h_res : (names.sockDnsQuery cfg.gatewayHost).1 < 0
      · simp [resolveV6addr, h_literal, h_dns, h_ok, h_res]
      · rw [Bool.not_eq_true] at h_literal
        rw [resolveV6addr_query cfg names host h_literal h_dns h_ok (Int.not_lt.mp h_res)]
        simp [h_literal, h_dns, h_ok, Int.not_lt.mp h_res]
    · simp [resolveV6addr, h_literal, h_dns, h_ok]
  · simp [resolveV6addr, h_literal, h_dns]

/-- The call of `emcute_con`, if it is made. -/
theorem mqpubConHost_events (port : UInt16) (con : Int) (stats : MqttsnStats) :
    (mqpubConHost cfg names host port con stats).events
      = if (resolveV6addr cfg names host).res < 0 then []
        else [.con (resolveV6addr cfg names host).addr port con] := by
  unfold mqpubConHost mqpubCon
  split; · rfl
  split <;> rfl

end

/-! ### The endpoint -/

/-- The address of a host: the literal that it is, else what the resolver gives for it. -/
def hostAddr (names : Names) (host : List Char) : Option Ipv6Addr :=
  if (names.ipv6AddrFromStr host).1 = true then some (names.ipv6AddrFromStr host).2
  else if (names.sockDnsQuery host).1 < 0 then none
  else some (v4Mapped (names.sockDnsQuery host).2)

/-- `mqpub_con` connects to the address of its host and to its port, if at all, and not at all if
the host has no address. -/
structure EndpointOfHost (cfg : DnsConfig) (names : Names) (host : List Char) (port : UInt16)
    (con : Int) (stats : MqttsnStats) : Prop where
  endpoint : ∀ addr p errno,
    Event.con addr p errno ∈ (mqpubConHost cfg names host port con stats).events →
      p = port ∧ hostAddr names host = some addr
  unresolved : hostAddr names host = none →
    (mqpubConHost cfg names host port con stats).events = []

section

variable (cfg : DnsConfig) (names : Names) (host : List Char) (port : UInt16) (con : Int)
  (stats : MqttsnStats)

/-- What is resolved decides about the endpoint. -/
theorem endpointOfHost_iff_resolved : EndpointOfHost cfg names host port con stats ↔
    (Resolves cfg names host →
      hostAddr names host = some (resolveV6addr cfg names host).addr) := by
  have h_neg := resolveV6addr_res_neg cfg names host
  have h_events := mqpubConHost_events cfg names host port con stats
  constructor
  · intro h h_resolves
    rw [if_neg fun h_lt => h_neg.mp h_lt h_resolves] at h_events
    exact (h.endpoint _ port con (by rw [h_events]; exact List.mem_singleton_self _)).2
  · intro h
    by_cases h_resolves : Resolves cfg names host
    · -- one connection, to what the union holds
      rw [if_neg fun h_lt => h_neg.mp h_lt h_resolves] at h_events
      refine ⟨fun addr p errno h_mem => ?_, fun h_none => ?_⟩
      · rw [h_events, List.mem_singleton, Event.con.injEq] at h_mem
        obtain ⟨rfl, rfl, -⟩ := h_mem
        exact ⟨rfl, h h_resolves⟩
      · rw [h h_resolves] at h_none
        exact absurd h_none (by simp)
    · -- none at all
      rw [if_pos (h_neg.mpr h_resolves)] at h_events
      refine ⟨fun addr p errno h_mem => ?_, fun _ => h_events⟩
      rw [h_events] at h_mem
      exact absurd h_mem List.not_mem_nil

/-- The resolver does not tell the host from the gateway, or is not asked: the host is a literal,
or the query of the gateway fails, or it gives the address that the host has. -/
def SameAnswer : Prop :=
  (names.ipv6AddrFromStr host).1 = true ∨ cfg.resolverOk names = false ∨
    (names.sockDnsQuery cfg.gatewayHost).1 < 0 ∨
    (0 ≤ (names.sockDnsQuery host).1 ∧
      (names.sockDnsQuery host).2 = (names.sockDnsQuery cfg.gatewayHost).2)

theorem resolved_hostAddr_iff (h_dns : cfg.sockDns = true) :
    (Resolves cfg names host → hostAddr names host = some (resolveV6addr cfg names host).addr) ↔
      SameAnswer cfg names host := by
  unfold SameAnswer
  by_cases h_literal : (names.ipv6AddrFromStr host).1 = true
  · -- the parser's address is that of the host
    have h_addr : hostAddr names host = some (resolveV6addr cfg names host).addr := by
      simp [hostAddr, resolveV6addr, h_literal]
    exact iff_of_true (fun _ => h_addr) (.inl h_literal)
  rw [Bool.not_eq_true] at h_literal
  by_cases h_query : cfg.resolverOk names = true ∧ 0 ≤ (names.sockDnsQuery cfg.gatewayHost).1
  · -- the gateway is resolved in place of the host
    obtain ⟨h_ok, h_res⟩ := h_query
    rw [resolveV6addr_query cfg names host h_literal h_dns h_ok h_res]
    have h_resolves : Resolves cfg names host := .inr ⟨h_dns, h_ok, h_res⟩
    simp only [h_resolves, true_imp_iff, hostAddr, h_literal, h_ok, Bool.false_eq_true, if_false,
      Bool.true_eq_false, false_or]
    by_cases h_host : (names.sockDnsQuery host).1 < 0
    · rw [if_pos h_host]
      refine iff_of_false (by simp) ?_
      rintro (h_lt | ⟨h_nonneg, -⟩) <;> omega
    · rw [if_neg h_host, Option.some.injEq]
      constructor
      · exact fun h => .inr ⟨Int.not_lt.mp h_host, v4Mapped_inj h⟩
      · rintro (h_lt | ⟨-, h_same⟩)
        · omega
        · rw [h_same]
  · -- nothing is resolved
    refine iff_of_true (fun h => ?_) ?_
    · rcases h with h | ⟨-, h_ok, h_res⟩
      · rw [h_literal] at h
        exact absurd h (by decide)
      · exact absurd ⟨h_ok, h_res⟩ h_query
    · by_cases h_ok : cfg.resolverOk names = true
      · exact .inr (.inr (.inl (Int.not_le.mp fun h_res => h_query ⟨h_ok, h_res⟩)))
      · exact .inr (.inl (Bool.not_eq_true _ ▸ h_ok))

/-- **When the endpoint is that of the host.** With the DNS compiled in, whatever the parser and
the resolver do, `mqpub_con` connects to the address of the host it is given, or to none if that
has no address, if and only if the host is a literal, or no query of the gateway succeeds, or the
query gives the address of the host. -/
theorem endpointOfHost_iff (h_dns : cfg.sockDns = true) :
    EndpointOfHost cfg names host port con stats ↔ SameAnswer cfg names host := by
  rw [endpointOfHost_iff_resolved]
  exact resolved_hostAddr_iff cfg names host h_dns

/-- For a given parser it is so for every resolver only if the resolver does not matter, or the
host is the gateway. -/
theorem endpointOfHost_forall_iff (h_dns : cfg.sockDns = true) :
    (∀ query, EndpointOfHost cfg { names with sockDnsQuery := query } host port con stats) ↔
      (names.ipv6AddrFromStr host).1 = true ∨ cfg.resolverOk names = false ∨
        host = cfg.gatewayHost := by
  simp only [endpointOfHost_iff_resolved, resolved_hostAddr_iff _ _ _ h_dns]
  constructor
  · intro h
    -- a resolver that knows the gateway only
    have h_gateway := h fun name => if name = cfg.gatewayHost then (4, Vector.replicate 4 0)
      else (-1, Vector.replicate 4 0)
    rcases h_gateway with h_literal | h_bad | h_fails | ⟨h_host, -⟩
    · exact .inl h_literal
    · exact .inr (.inl h_bad)
    · simp at h_fails
    · by_cases h_eq : host = cfg.gatewayHost
      · exact .inr (.inr h_eq)
      · simp [h_eq] at h_host
  · rintro (h_literal | h_bad | h_eq) query
    · exact .inl h_literal
    · exact .inr (.inl h_bad)
    · subst h_eq
      rcases lt_or_ge (query cfg.gatewayHost).1 0 with h_lt | h_ge
      · exact .inr (.inr (.inl h_lt))
      · exact .inr (.inr (.inr ⟨h_ge, rfl⟩))

end

/-- A resolver that gives 10.0.0.1 for the gateway and 10.0.0.2 for every other name; `"::1"` and
the address of the resolver are the only literals. -/
def twoHosts : Names where
  ipv6AddrFromStr name :=
    if name = "::1".toList then (true, #v[0, 0, 0, 0, 0, 0, 0, 0, 0, 0, 0, 0, 0, 0, 0, 1])
    else (name == "2001:4860:4860::8888".toList, Vector.replicate 16 0)
  sockDnsQuery name :=
    (4, if name = DnsConfig.useDns.gatewayHost then #v[10, 0, 0, 1] else #v[10, 0, 0, 2])

theorem endpointOfHost_loopback :
    EndpointOfHost DnsConfig.useDns twoHosts "::1".toList 1883 0 MqttsnStats.zero ↔
      SameAnswer DnsConfig.useDns twoHosts "::1".toList :=
  endpointOfHost_iff DnsConfig.useDns twoHosts "::1".toList 1883 0 MqttsnStats.zero rfl

/-- Another host is asked for, and the gateway connected to. -/
theorem otherHost_connects_gateway :
    (mqpubConHost DnsConfig.useDns twoHosts "example.org".toList 1883 0 MqttsnStats.zero).events
        = [.con (v4Mapped #v[10, 0, 0, 1]) 1883 0] ∧
      hostAddr twoHosts "example.org".toList = some (v4Mapped #v[10, 0, 0, 2]) ∧
      ¬ EndpointOfHost DnsConfig.useDns twoHosts "example.org".toList 1883 0 MqttsnStats.zero := by
  have h_events : (mqpubConHost DnsConfig.useDns twoHosts "example.org".toList 1883 0
      MqttsnStats.zero).events = [.con (v4Mapped #v[10, 0, 0, 1]) 1883 0] := by decide +kernel
  have h_addr : hostAddr twoHosts "example.org".toList = some (v4Mapped #v[10, 0, 0, 2]) := by
    decide +kernel
  refine ⟨h_events, h_addr, fun h => ?_⟩
  have h_endpoint := (h.endpoint (v4Mapped #v[10, 0, 0, 1]) 1883 0 (by rw [h_events]; simp)).2
  rw [h_addr, Option.some.injEq] at h_endpoint
  exact absurd (v4Mapped_inj h_endpoint) (by decide)

end AirQuality
