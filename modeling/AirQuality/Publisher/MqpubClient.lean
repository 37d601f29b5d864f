import AirQuality.Publisher.MqpubRuns
import AirQuality.Publisher.Resolve

/-!
# The client functions on their own

`mqpub_con`, `mqpub_reg` and `mqpub_pub` are called by the publisher thread and, one after the
other, by `mqpub_pubtopic`; nothing keeps other code from calling them in any order.

Each of them has a pair of counters. `mqpub_reg` and `mqpub_pub` count every call, and so does
`mqpub_con` once the host is resolved; before, it returns without counting anything. So the
counters account for the calls of a run if and only if every host of it is resolved
(`accounted_iff`).

`mqpub_pubtopic` opens a session, and closes it after the publish, whether that succeeds or not.
When the registration fails it returns without closing it (`closesSessions_iff`).
-/

namespace AirQuality

open Machine

/-! ### Calls -/

/-- A call of a client function: its arguments, and how the resolver and `emcute` behave in it. -/
inductive ClientCall where
  | con (names : Names) (host : List Char) (port : UInt16) (errno : Int)
  | reg (topic : Topic) (topicstr : List Char) (reg : Registration)
  | pub (topic : Topic) (data : List Char) (errno : Int)

/-- Which function is called. -/
inductive CallKind where
  | con
  | reg
  | pub
  deriving DecidableEq

def ClientCall.kind : ClientCall → CallKind
  | .con _ _ _ _ => .con
  | .reg _ _ _ => .reg
  | .pub _ _ _ => .pub

/-- What the function does. -/
def clientCall (cfg : DnsConfig) (stats : MqttsnStats) : ClientCall → Outcome
  | .con names host port errno => mqpubConHost cfg names host port errno stats
  | .reg topic topicstr reg => (mqpubReg topic topicstr reg stats).2
  | .pub topic data errno => mqpubPub topic data errno stats

/-- The counters after a run of calls. -/
def clientCalls (cfg : DnsConfig) (cs : List ClientCall) : MqttsnStats :=
  run (fun stats c => (clientCall cfg stats c).stats) MqttsnStats.zero cs

/-- The counter of the successes of a function. -/
def okCount : CallKind → MqttsnStats → UInt16
  | .con => MqttsnStats.connectOk
  | .reg => MqttsnStats.registerOk
  | .pub => MqttsnStats.publishOk

/-- The counter of its failures. -/
def failCount : CallKind → MqttsnStats → UInt16
  | .con => MqttsnStats.connectFail
  | .reg => MqttsnStats.registerFail
  | .pub => MqttsnStats.publishFail

/-- **The call is counted**, in one counter of its pair, as its return value says. -/
structure Counted (kind : CallKind) (stats stats' : MqttsnStats) (ret : Int) : Prop where
  ok : ret = 0 → okCount kind stats' = okCount kind stats + 1 ∧
    failCount kind stats' = failCount kind stats
  fail : ret ≠ 0 → okCount kind stats' = okCount kind stats ∧
    failCount kind stats' = failCount kind stats + 1
  others : ∀ k, k ≠ kind → okCount k stats' = okCount k stats ∧
    failCount k stats' = failCount k stats

/-- The host of the call, if it has one, is resolved. -/
def ClientCall.Resolved (cfg : DnsConfig) : ClientCall → Prop
  | .con names host _ _ => Resolves cfg names host
  | _ => True

/-- One more success. -/
def countOk (stats : MqttsnStats) : CallKind → MqttsnStats
  | .con => { stats with connectOk := stats.connectOk + 1 }
  | .reg => { stats with registerOk := stats.registerOk + 1 }
  | .pub => { stats with publishOk := stats.publishOk + 1 }

/-- One more failure. -/
def countFail (stats : MqttsnStats) : CallKind → MqttsnStats
  | .con => { stats with connectFail := stats.connectFail + 1 }
  | .reg => { stats with registerFail := stats.registerFail + 1 }
  | .pub => { stats with publishFail := stats.publishFail + 1 }

theorem counted_ok (kind : CallKind) (stats : MqttsnStats) :
    Counted kind stats (countOk stats kind) 0 where
  ok _ := by cases kind <;> exact ⟨rfl, rfl⟩
  fail h := absurd rfl h
  others k hk := by cases kind <;> cases k <;> first | exact absurd rfl hk | exact ⟨rfl, rfl⟩

theorem counted_fail (kind : CallKind) (stats : MqttsnStats) {ret : Int} (h_ret : ret ≠ 0) :
    Counted kind stats (countFail stats kind) ret where
  ok h := absurd h h_ret
  fail _ := by cases kind <;> exact ⟨rfl, rfl⟩
  others k hk := by cases kind <;> cases k <;> first | exact absurd rfl hk | exact ⟨rfl, rfl⟩

/-- **What a call can do**, if the host is resolved: succeed or fail, and be counted. -/
theorem clientCall_cases {cfg : DnsConfig} {c : ClientCall} (h : c.Resolved cfg)
    (stats : MqttsnStats) :
    (∃ evs, clientCall cfg stats c = ⟨countOk stats c.kind, evs, 0⟩) ∨
      ∃ evs ret, ret ≠ 0 ∧ clientCall cfg stats c = ⟨countFail stats c.kind, evs, ret⟩ := by
  cases c with
  | con names host port errno =>
    have h_res : ¬ (resolveV6addr cfg names host).res < 0 :=
      fun h_lt => (resolveV6addr_res_neg cfg names host).mp h_lt h
    by_cases h_con : errno = emcuteOk
    · exact .inl ⟨_, mqpubCon_ok stats h_res h_con⟩
    · exact .inr ⟨_, 1, by decide, mqpubCon_fails stats h_res h_con⟩
  | reg topic topicstr reg =>
    by_cases h_reg : reg.res = emcuteOk
    · exact .inl ⟨_, congrArg Prod.snd (mqpubReg_ok topic topicstr stats h_reg)⟩
    · exact .inr ⟨_, 1, by decide, congrArg Prod.snd (mqpubReg_fails topic topicstr stats h_reg)⟩
  | pub topic data errno =>
    by_cases h_pub : errno = emcuteOk
    · exact .inl ⟨_, mqpubPub_ok topic data stats h_pub⟩
    -- the error is returned
    · exact .inr ⟨_, errno, h_pub, mqpubPub_fails topic data stats h_pub⟩

/-- A connection to a host that is not resolved fails, and no counter changes. -/
theorem clientCall_unresolved {cfg : DnsConfig} {c : ClientCall} (h : ¬ c.Resolved cfg)
    (stats : MqttsnStats) :
    (clientCall cfg stats c).ret ≠ 0 ∧ (clientCall cfg stats c).stats = stats := by
  cases c with
  | con names host port errno =>
    have h_res := (resolveV6addr_res_neg cfg names host).mpr h
    have h_call : clientCall cfg stats (.con names host port errno)
        = ⟨stats, [], (resolveV6addr cfg names host).res⟩ := if_pos h_res
    rw [h_call]
    exact ⟨Int.ne_of_lt h_res, rfl⟩
  | reg => exact absurd trivial h
  | pub => exact absurd trivial h

/-- **A call is counted if and only if its host is resolved.** -/
theorem clientCall_counted_iff (cfg : DnsConfig) (c : ClientCall) (stats : MqttsnStats) :
    Counted c.kind stats (clientCall cfg stats c).stats (clientCall cfg stats c).ret ↔
      c.Resolved cfg := by
  constructor
  · intro h_counted
    by_contra h
    obtain ⟨h_ret, h_stats⟩ := clientCall_unresolved h stats
    have h_fail := (h_counted.fail h_ret).2
    rw [h_stats] at h_fail
    exact absurd h_fail (by simp)
  · intro h
    rcases clientCall_cases h stats with ⟨evs, h_call⟩ | ⟨evs, ret, h_ret, h_call⟩
    · rw [h_call]
      exact counted_ok c.kind stats
    · rw [h_call]
      exact counted_fail c.kind stats h_ret

/-- A counted call adds one to the pair of its function, and nothing to the others. -/
theorem Counted.pair {kind : CallKind} {stats stats' : MqttsnStats} {ret : Int}
    (h : Counted kind stats stats' ret) (k : CallKind) :
    okCount k stats' + failCount k stats'
      = okCount k stats + failCount k stats + if kind = k then 1 else 0 := by
  by_cases h_k : kind = k
  · subst h_k
    rw [if_pos rfl]
    by_cases h_ret : ret = 0
    · rw [(h.ok h_ret).1, (h.ok h_ret).2]
      grind
    · rw [(h.fail h_ret).1, (h.fail h_ret).2]
      grind
  · rw [if_neg h_k, (h.others k (Ne.symm h_k)).1, (h.others k (Ne.symm h_k)).2]
    grind

/-! ### Runs of calls -/

/-- The call `c`, after the calls `pre`, is counted. -/
def CallCounted (cfg : DnsConfig) (pre : List ClientCall) (c : ClientCall) : Prop :=
  Counted c.kind (clientCalls cfg pre) (clientCalls cfg (pre ++ [c]))
    (clientCall cfg (clientCalls cfg pre) c).ret

/-- **The counters account for a run**: every call is counted, and each pair adds up, modulo
`2 ^ 16`, to the number of calls of its function. -/
structure Accounted (cfg : DnsConfig) (cs : List ClientCall) : Prop where
  counted : Along (CallCounted cfg) cs
  pairs : ∀ k, okCount k (clientCalls cfg cs) + failCount k (clientCalls cfg cs)
    = UInt16.ofNat (cs.countP fun c => c.kind = k)

theorem clientCalls_concat (cfg : DnsConfig) (cs : List ClientCall) (c : ClientCall) :
    clientCalls cfg (cs ++ [c]) = (clientCall cfg (clientCalls cfg cs) c).stats := run_concat cs c

theorem callCounted_iff (cfg : DnsConfig) (pre : List ClientCall) (c : ClientCall) :
    CallCounted cfg pre c ↔ c.Resolved cfg := by
  unfold CallCounted
  rw [clientCalls_concat]
  exact clientCall_counted_iff cfg c (clientCalls cfg pre)

theorem pairs_of_resolved {cfg : DnsConfig} {cs : List ClientCall}
    (h : ∀ c ∈ cs, c.Resolved cfg) (k : CallKind) :
    okCount k (clientCalls cfg cs) + failCount k (clientCalls cfg cs)
      = UInt16.ofNat (cs.countP fun c => c.kind = k) := by
  induction cs using List.reverseRecOn with
  | nil => cases k <;> rfl
  | append_singleton cs c ih =>
    -- the last call counts once, in the pair of its own kind
    have h_step := ((clientCall_counted_iff cfg c (clientCalls cfg cs)).mpr
      (h c (by simp))).pair k
    have h_ih := ih fun c' hc' => h c' (List.mem_append_left _ hc')
    calc okCount k (clientCalls cfg (cs ++ [c])) + failCount k (clientCalls cfg (cs ++ [c]))
        = okCount k (clientCalls cfg cs) + failCount k (clientCalls cfg cs)
            + if c.kind = k then 1 else 0 := by rw [clientCalls_concat, h_step]
      _ = UInt16.ofNat (cs.countP fun c => c.kind = k) + if c.kind = k then 1 else 0 := by
        rw [h_ih]
      _ = UInt16.ofNat ((cs ++ [c]).countP fun c => c.kind = k) := by
        rw [List.countP_append, List.countP_singleton, UInt16.ofNat_add]
        by_cases h_k : c.kind = k <;> simp [h_k]

/-- **When the counters account for the calls.** In a run of calls, with whatever arguments and
outcomes, every call is counted and the pairs add up if and only if no connection fails because
its host is not resolved. -/
theorem accounted_iff (cfg : DnsConfig) (cs : List ClientCall) :
    Accounted cfg cs ↔ ∀ c ∈ cs, c.Resolved cfg := by
  constructor
  · intro h c hc
    obtain ⟨pre, post, h_split⟩ := List.append_of_mem hc
    exact (callCounted_iff cfg pre c).mp (h.counted pre c post h_split)
  · intro h
    refine ⟨fun pre c post h_split => ?_, pairs_of_resolved h⟩
    apply (callCounted_iff cfg pre c).mpr
    exact h c (by simp [h_split])

/-- No name is a literal, and no query is answered. -/
def noNames : Names :=
  ⟨fun _ => (false, Vector.replicate 16 0), fun _ => (-1, Vector.replicate 4 0)⟩

/-- A node that cannot resolve its gateway shows no failure. -/
theorem unresolved_not_accounted :
    let c : ClientCall := .con noNames DnsConfig.useDns.gatewayHost 10000 0
    (clientCall DnsConfig.useDns MqttsnStats.zero c).ret = -1 ∧
      clientCalls DnsConfig.useDns [c] = MqttsnStats.zero ∧
      ¬ Accounted DnsConfig.useDns [c] := by
  intro c
  refine ⟨rfl, rfl, fun h => ?_⟩
  exact absurd (h.pairs .con) (by decide)

/-! ### One-stop publishing -/

/-- A call of `mqpub_pubtopic`: its arguments, and how the calls made in it would turn out. -/
structure PubtopicCall where
  topicstr : List Char
  data : List Char
  names : Names
  con : Int
  reg : Registration
  pub : Int
  discon : Int

/-- **`mqpub_pubtopic`**, where `port` is `MQTTSN_GATEWAY_PORT`. -/
def mqpubPubtopic (cfg : DnsConfig) (port : UInt16) (stats : MqttsnStats) (c : PubtopicCall) :
    Outcome :=
  let con := mqpubConHost cfg c.names cfg.gatewayHost port c.con stats
  if con.ret ≠ 0 then con
  else
    let (topic, reg) := mqpubReg ⟨none, none⟩ c.topicstr c.reg con.stats
    -- returns with the session open
    if reg.ret ≠ 0 then ⟨reg.stats, con.events ++ reg.events, reg.ret⟩
    else
      let pub := mqpubPub topic c.data c.pub reg.stats
      -- the value of `mqpub_reset()` is not looked at
      let reset := mqpubReset c.discon pub.stats
      ⟨reset.stats, con.events ++ reg.events ++ pub.events ++ reset.events, pub.ret⟩

/-- The counters after a run of calls. -/
def pubtopics (cfg : DnsConfig) (port : UInt16) (cs : List PubtopicCall) : MqttsnStats :=
  run (fun stats c => (mqpubPubtopic cfg port stats c).stats) MqttsnStats.zero cs

/-- The calls of `emcute` that it makes. -/
def pubtopicsTrace (cfg : DnsConfig) (port : UInt16) (cs : List PubtopicCall) : List Event :=
  trace (fun stats c => (mqpubPubtopic cfg port stats c).stats)
    (fun stats c => (mqpubPubtopic cfg port stats c).events) MqttsnStats.zero cs

/-- The session is opened in the call. -/
def PubtopicCall.Connects (cfg : DnsConfig) (c : PubtopicCall) : Prop :=
  Resolves cfg c.names cfg.gatewayHost ∧ c.con = emcuteOk

/-- **What a call can do.** -/
inductive PubtopicStep (cfg : DnsConfig) (port : UInt16) (c : PubtopicCall) :
    List Event → Int → Prop where
  | unresolved (h : ¬ c.Connects cfg) (ret : Int) (h_ret : ret ≠ 0) : PubtopicStep cfg port c [] ret
  | conFails (h : ¬ c.Connects cfg) (h_con : c.con ≠ emcuteOk) (addr : Ipv6Addr) :
    PubtopicStep cfg port c [.con addr port c.con] 1
  | regFails (h : c.Connects cfg) (h_reg : c.reg.res ≠ emcuteOk) (addr : Ipv6Addr)
      (topic : Topic) :
    PubtopicStep cfg port c [.con addr port emcuteOk, .reg topic c.reg.res] 1
  | pub (h : c.Connects cfg) (h_reg : c.reg.res = emcuteOk) (addr : Ipv6Addr) (topic : Topic) :
    PubtopicStep cfg port c [.con addr port emcuteOk, .reg topic emcuteOk,
      .pub topic c.data c.pub, .discon c.discon] c.pub

/-- The publish returns what `emcute_pub` returned. -/
theorem mqpubPub_outcome (topic : Topic) (data : List Char) (pub : Int) (stats : MqttsnStats) :
    (mqpubPub topic data pub stats).events = [.pub topic data pub] ∧
      (mqpubPub topic data pub stats).ret = pub := by
  by_cases h_pub : pub = emcuteOk
  · rw [mqpubPub_ok topic data stats h_pub]
    exact ⟨rfl, h_pub.symm⟩
  · rw [mqpubPub_fails topic data stats h_pub]
    exact ⟨rfl, rfl⟩

theorem mqpubPubtopic_step (cfg : DnsConfig) (port : UInt16) (stats : MqttsnStats)
    (c : PubtopicCall) : PubtopicStep cfg port c (mqpubPubtopic cfg port stats c).events
      (mqpubPubtopic cfg port stats c).ret := by
  have h_neg := resolveV6addr_res_neg cfg c.names cfg.gatewayHost
  unfold mqpubPubtopic mqpubConHost
  by_cases h_res : (resolveV6addr cfg c.names cfg.gatewayHost).res < 0
  · -- `mqpub_con` returns the error of the resolver
    have h_ne : (resolveV6addr cfg c.names cfg.gatewayHost).res ≠ 0 := by omega
    simp only [mqpubCon_unresolved stats h_res, if_pos h_ne]
    exact .unresolved (fun h => h_neg.mp h_res h.1) _ h_ne
  by_cases h_con : c.con = emcuteOk
  swap
  · rw [mqpubCon_fails stats h_res h_con]
    exact .conFails (fun h => h_con h.2) h_con _
  -- the session is open
  have h_connects : c.Connects cfg := ⟨not_not.mp (mt h_neg.mpr h_res), h_con⟩
  by_cases h_reg : c.reg.res = emcuteOk
  · simp only [mqpubCon_ok stats h_res h_con, mqpubReg_ok _ _ _ h_reg, ne_eq, not_true_eq_false,
      if_false, mqpubPub_outcome, mqpubReset_events]
    rw [h_con, h_reg]
    exact .pub h_connects h_reg _ _
  · simp only [mqpubCon_ok stats h_res h_con, mqpubReg_fails _ _ _ h_reg, ne_eq, Int.one_ne_zero,
      not_true_eq_false, not_false_eq_true, if_false, if_true]
    rw [h_con]
    exact .regFails h_connects h_reg _ _

/-- A registration fails in a session that the call has opened. -/
def PubtopicCall.Leaks (cfg : DnsConfig) (c : PubtopicCall) : Prop :=
  c.Connects cfg ∧ c.reg.res ≠ emcuteOk

/-- The publish of a call succeeded. -/
def published (evs : List Event) : Prop := ∃ topic data, .pub topic data emcuteOk ∈ evs

/-- A call returns 0 exactly if its publish succeeded. -/
theorem PubtopicStep.ret_iff {cfg : DnsConfig} {port : UInt16} {c : PubtopicCall}
    {evs : List Event} {ret : Int} (h : PubtopicStep cfg port c evs ret) :
    ret = 0 ↔ published evs := by
  unfold published
  cases h with
  -- a call that ends before the publish returns an error, and has no publish among its events
  | unresolved _ _ h_ret => simp [h_ret]
  | conFails => simp
  | regFails => simp
  | pub _ _ addr topic =>
    constructor
    · intro h_ret
      exact ⟨topic, c.data, by simp [h_ret, emcuteOk]⟩
    · rintro ⟨t, data, h_mem⟩
      have h_pub : emcuteOk = c.pub := by
        simp only [List.mem_cons, reduceCtorEq, Event.pub.injEq, List.not_mem_nil, or_false,
          false_or] at h_mem
        exact h_mem.2.2
      exact h_pub.symm

/-- A call that does not leak leaves the session closed, and connects to none that is open. -/
theorem PubtopicStep.closes {cfg : DnsConfig} {port : UInt16} {c : PubtopicCall}
    {evs tr : List Event} {ret : Int} (h : PubtopicStep cfg port c evs ret)
    (h_leaks : ¬ c.Leaks cfg) (h_discon : c.discon = emcuteOk) (h_closed : sessionOpen tr = false) :
    sessionOpen (tr ++ evs) = false := by
  rw [sessionOpen_append, h_closed]
  cases h with
  | unresolved => rfl
  | conFails _ h_con => simp [sessionStep, h_con]
  | regFails h_con h_reg => exact absurd ⟨h_con, h_reg⟩ h_leaks
  | pub => simp [sessionStep, h_discon]

/-- A call that leaks leaves it open. -/
theorem PubtopicStep.leaves_open {cfg : DnsConfig} {port : UInt16} {c : PubtopicCall}
    {evs : List Event} {ret : Int} (h : PubtopicStep cfg port c evs ret) (h_leaks : c.Leaks cfg)
    (tr : List Event) : sessionOpen (tr ++ evs) = true := by
  rw [sessionOpen_append]
  cases h with
  | unresolved h_con => exact absurd h_leaks.1 h_con
  | conFails h_con => exact absurd h_leaks.1 h_con
  | regFails => simp [sessionStep]
  | pub _ h_reg => exact absurd h_reg h_leaks.2

/-- No attempt to connect is made in a session that is open. -/
def ConnectsWhenClosed (tr : List Event) : Prop :=
  Along (fun pre e => e.isCon = true → sessionOpen pre = false) tr

/-- A call after which the session is closed connects at its beginning, if at all. -/
theorem PubtopicStep.connects {cfg : DnsConfig} {port : UInt16} {c : PubtopicCall}
    {evs tr : List Event} {ret : Int} (h : PubtopicStep cfg port c evs ret)
    (h_closed : sessionOpen tr = false) (h_tr : ConnectsWhenClosed tr) :
    ConnectsWhenClosed (tr ++ evs) := by
  unfold ConnectsWhenClosed at h_tr ⊢
  rw [along_append]
  refine ⟨h_tr, ?_⟩
  cases h with
  | unresolved => exact along_nil _
  | conFails => simp [along_cons, along_nil, h_closed]
  | regFails => simp [along_cons, along_nil, h_closed, Event.isCon]
  | pub => simp [along_cons, along_nil, h_closed, Event.isCon]

/-- The call `c`, after the calls `pre`, returns 0 exactly if its publish succeeded. -/
def ReturnsPublished (cfg : DnsConfig) (port : UInt16) (pre : List PubtopicCall)
    (c : PubtopicCall) : Prop :=
  (mqpubPubtopic cfg port (pubtopics cfg port pre) c).ret = 0 ↔
    published (mqpubPubtopic cfg port (pubtopics cfg port pre) c).events

/-- **Every call closes what it opens**: it returns with the session closed, connects when no
session is open, and returns 0 exactly if its publish succeeded. -/
structure ClosesSessions (cfg : DnsConfig) (port : UInt16) (cs : List PubtopicCall) : Prop where
  closed : ∀ pre post, cs = pre ++ post → sessionOpen (pubtopicsTrace cfg port pre) = false
  connects : ConnectsWhenClosed (pubtopicsTrace cfg port cs)
  returns : Along (ReturnsPublished cfg port) cs

section

variable {cfg : DnsConfig} {port : UInt16} {cs : List PubtopicCall}

theorem pubtopicsTrace_concat (c : PubtopicCall) : pubtopicsTrace cfg port (cs ++ [c])
    = pubtopicsTrace cfg port cs ++ (mqpubPubtopic cfg port (pubtopics cfg port cs) c).events :=
  trace_concat cs c

/-- Calls that do not leak leave the session closed, and connect when it is. -/
theorem closed_of_no_leak (h_discon : ∀ c ∈ cs, c.discon = emcuteOk)
    (h : ∀ c ∈ cs, ¬ c.Leaks cfg) : sessionOpen (pubtopicsTrace cfg port cs) = false ∧
      ConnectsWhenClosed (pubtopicsTrace cfg port cs) := by
  induction cs using List.reverseRecOn with
  | nil => exact ⟨rfl, along_nil _⟩
  | append_singleton cs c ih =>
    obtain ⟨h_closed, h_connects⟩ := ih (fun c hc => h_discon c (List.mem_append_left _ hc))
      fun c hc => h c (List.mem_append_left _ hc)
    have h_step := mqpubPubtopic_step cfg port (pubtopics cfg port cs) c
    rw [pubtopicsTrace_concat]
    exact ⟨h_step.closes (h c (by simp)) (h_discon c (by simp)) h_closed,
      h_step.connects h_closed h_connects⟩

/-- **When one-stop publishing closes its sessions.** If every disconnect succeeds, then in a run
of calls of `mqpub_pubtopic`, with whatever arguments and outcomes, every call closes what it opens
if and only if no registration fails in a session that was opened. -/
theorem closesSessions_iff (h_discon : ∀ c ∈ cs, c.discon = emcuteOk) :
    ClosesSessions cfg port cs ↔ ∀ c ∈ cs, ¬ c.Leaks cfg := by
  constructor
  · intro h c hc h_leaks
    obtain ⟨pre, post, h_split⟩ := List.append_of_mem hc
    have h_closed := h.closed (pre ++ [c]) post (by simp [h_split])
    -- after the call that leaks the session is open
    rw [pubtopicsTrace_concat,
      (mqpubPubtopic_step cfg port (pubtopics cfg port pre) c).leaves_open h_leaks] at h_closed
    exact absurd h_closed (by decide)
  · intro h
    refine ⟨fun pre post h_split => ?_, (closed_of_no_leak h_discon h).2, fun pre c _ _ => ?_⟩
    · subst h_split
      exact (closed_of_no_leak (fun c hc => h_discon c (List.mem_append_left _ hc))
        fun c hc => h c (List.mem_append_left _ hc)).1
    · exact (mqpubPubtopic_step cfg port (pubtopics cfg port pre) c).ret_iff

end

/-- The names of the node: the gateway is a literal. -/
def literalNames : Names :=
  ⟨fun _ => (true, Vector.replicate 16 0), fun _ => (-1, Vector.replicate 4 0)⟩

/-- A call in which everything succeeds. -/
def goodCall : PubtopicCall := ⟨"t".toList, "x".toList, literalNames, 0, ⟨0, 1⟩, 0, 0⟩

theorem closesSessions_goodCall : ClosesSessions .useDns 10000 [goodCall, goodCall] ↔
    ∀ c ∈ [goodCall, goodCall], ¬ c.Leaks .useDns :=
  closesSessions_iff (by decide)

/-- The gateway rejects the topic of the first call; the second one connects while the session is
open, and is refused. -/
theorem rejectedTopic_leaks :
    let cs := [{ goodCall with reg := ⟨-2, 0⟩ }, { goodCall with con := -3 }]
    (∀ c ∈ cs, c.discon = emcuteOk) ∧
      pubtopicsTrace .useDns 10000 cs = [.con (Vector.replicate 16 0) 10000 0,
        .reg ⟨some "t".toList, none⟩ (-2), .con (Vector.replicate 16 0) 10000 (-3)] ∧
      ¬ ClosesSessions .useDns 10000 cs := by
  intro cs
  refine ⟨by decide, by decide, fun h => ?_⟩
  have h_closed := h.closed [{ goodCall with reg := ⟨-2, 0⟩ }] [{ goodCall with con := -3 }] rfl
  exact absurd h_closed (by decide)

end AirQuality
