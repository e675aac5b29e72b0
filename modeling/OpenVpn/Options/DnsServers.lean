import Mathlib.Data.List.Induction

/-!
# DNS server lists (`dns.c`)

A list of servers ordered by priority is built by `dns_server_get`; after a pull the servers
configured before it are merged into the pulled ones.

* `serverAt` — a list read as a map from priorities to servers.
* `dnsServerOptions_spec`, `mergePrepull_spec` — the list that a sequence of options builds,
  and the merged list.
* `dns_servers_merged` — both, for any two sequences of options.
-/

namespace OpenVpn

/-- `struct dns_server`; `data` is what the options of a server set. -/
structure DnsServer (δ : Type) where
  priority : Int
  data : δ

variable {δ : Type} (zero : δ)

/-- `dns_server_get`: the list and the place of the entry that is returned. -/
def dnsServerGet (priority : Int) : List (DnsServer δ) → List (DnsServer δ) × Nat
  | [] => ([⟨priority, zero⟩], 0)
  | obj :: next =>
    if obj.priority > priority then (⟨priority, zero⟩ :: obj :: next, 0)
    else if obj.priority = priority then (obj :: next, 0)
    else
      let r := dnsServerGet priority next
      (obj :: r.1, r.2 + 1)

/-- An option of a server: its priority, and what it does to the entry. -/
structure DnsServerOption (δ : Type) where
  priority : Int
  set : δ → δ

/-- An option is applied to the entry that `dns_server_get` returns. -/
def dnsServerOption (l : List (DnsServer δ)) (o : DnsServerOption δ) : List (DnsServer δ) :=
  let r := dnsServerGet zero o.priority l
  r.1.modify r.2 fun s => { s with data := o.set s.data }

def dnsServerOptions (os : List (DnsServerOption δ)) : List (DnsServer δ) :=
  os.foldl (dnsServerOption zero) []

structure DnsOptions (δ : Type) where
  servers : List (DnsServer δ)
  serversPrepull : List (DnsServer δ)

def dnsOptionsPreprocessPull (o : DnsOptions δ) : DnsOptions δ := ⟨[], o.servers⟩

/-- The loop of `dns_options_postprocess_pull`: what hangs on the link field `entry`, for the
servers that are left on both sides. -/
def mergePrepull : (servers serversPp : List (DnsServer δ)) → List (DnsServer δ)
  | [], serversPp => serversPp
  | server :: next, [] => server :: next
  | server :: next, serverPp :: nextPp =>
    if server.priority > serverPp.priority then serverPp :: mergePrepull (server :: next) nextPp
    else if server.priority = serverPp.priority then server :: mergePrepull next nextPp
    else server :: mergePrepull next (serverPp :: nextPp)

def dnsOptionsPostprocessPull (o : DnsOptions δ) : DnsOptions δ :=
  ⟨mergePrepull o.servers o.serversPrepull, []⟩

/-! ## Lists as maps -/

/-- Strictly ordered: no priority occurs twice. -/
def Prioritised (l : List (DnsServer δ)) : Prop := l.Pairwise fun s t => s.priority < t.priority

def serverAt (l : List (DnsServer δ)) (priority : Int) : Option δ :=
  (l.find? fun s => s.priority = priority).map DnsServer.data

/-- What the options of a priority set, if there are any. -/
def requestedOf (os : List (DnsServerOption δ)) (priority : Int) : Option δ :=
  if priority ∈ os.map (·.priority) then
    some ((os.filter (·.priority = priority)).foldl (fun d o => o.set d) zero)
  else none

variable {l : List (DnsServer δ)} {o : DnsServerOption δ}

theorem prioritised_cons {s : DnsServer δ} : Prioritised (s :: l) ↔
    (∀ t ∈ l, s.priority < t.priority) ∧ Prioritised l := List.pairwise_cons

theorem serverAt_cons (s : DnsServer δ) (l : List (DnsServer δ)) (priority : Int) :
    serverAt (s :: l) priority =
      if s.priority = priority then some s.data else serverAt l priority := by
  unfold serverAt
  grind

theorem serverAt_below {priority : Int} (h : ∀ s ∈ l, priority < s.priority) :
    serverAt l priority = none := by
  have hfind : (l.find? fun s => decide (s.priority = priority)) = none := by
    grind
  rw [serverAt, hfind, Option.map_none]

theorem dnsServerOption_cons (obj : DnsServer δ) (next : List (DnsServer δ)) :
    dnsServerOption zero (obj :: next) o =
      if obj.priority > o.priority then ⟨o.priority, o.set zero⟩ :: obj :: next
      else if obj.priority = o.priority then { obj with data := o.set obj.data } :: next
      else obj :: dnsServerOption zero next o := by
  unfold dnsServerOption
  rw [dnsServerGet]
  split_ifs <;> rfl

theorem dnsServerOption_spec (hl : Prioritised l) :
    Prioritised (dnsServerOption zero l o) ∧
      (∀ s ∈ dnsServerOption zero l o, s.priority = o.priority ∨ s ∈ l) ∧
      ∀ priority, serverAt (dnsServerOption zero l o) priority =
        if priority = o.priority then some (o.set ((serverAt l priority).getD zero))
        else serverAt l priority := by
  induction l with
  | nil =>
    have hnew : dnsServerOption zero [] o = [⟨o.priority, o.set zero⟩] := rfl
    rw [hnew]
    exact ⟨List.pairwise_singleton _ _, by simp, fun p => by simp [serverAt, eq_comm]⟩
  | cons obj next ih =>
    have hbelow : obj.priority > o.priority → serverAt (obj :: next) o.priority = none :=
      fun hgt => serverAt_below (by grind [prioritised_cons])
    rw [dnsServerOption_cons]
    split_ifs
    · grind [prioritised_cons, serverAt_cons]
    · grind [prioritised_cons, serverAt_cons]
    · grind [prioritised_cons, serverAt_cons]

theorem dnsServerOptions_spec (os : List (DnsServerOption δ)) :
    Prioritised (dnsServerOptions zero os) ∧
      ∀ priority, serverAt (dnsServerOptions zero os) priority = requestedOf zero os priority := by
  induction os using List.reverseRecOn with
  | nil => exact ⟨.nil, fun _ => rfl⟩
  | append_singleton os o ih =>
    obtain ⟨hsort, -, hat⟩ := dnsServerOption_spec zero (o := o) ih.1
    have happ : dnsServerOptions zero (os ++ [o]) =
        dnsServerOption zero (dnsServerOptions zero os) o := List.foldl_append
    rw [happ]
    refine ⟨hsort, fun priority => ?_⟩
    rw [hat, ih.2]
    by_cases h : priority = o.priority
    · have hnone : priority ∉ os.map (·.priority) → os.filter (·.priority = priority) = [] := by
        simp [List.filter_eq_nil_iff]
      by_cases hmem : priority ∈ os.map (·.priority)
      · simp [requestedOf, h.symm, hmem]
      · simp [requestedOf, h.symm, hmem, hnone hmem]
    · simp [requestedOf, h, Ne.symm h]

/-! ## The merge -/

theorem mergePrepull_spec {servers serversPp : List (DnsServer δ)} (hl : Prioritised servers)
    (hpp : Prioritised serversPp) :
    Prioritised (mergePrepull servers serversPp) ∧
      (∀ s ∈ mergePrepull servers serversPp, s ∈ servers ∨ s ∈ serversPp) ∧
      ∀ priority, serverAt (mergePrepull servers serversPp) priority =
        (serverAt servers priority).or (serverAt serversPp priority) := by
  fun_induction mergePrepull servers serversPp with
  | case1 => exact ⟨hpp, fun _ hs => .inr hs, fun _ => rfl⟩
  | case2 => exact ⟨hl, fun _ hs => .inl hs, fun _ => Option.or_none.symm⟩
  | case3 server next serverPp nextPp hgt ih =>
    have hbelow : serverAt (server :: next) serverPp.priority = none :=
      serverAt_below (by grind [prioritised_cons])
    grind [prioritised_cons, serverAt_cons]
  | case4 server next serverPp nextPp hgt heq ih =>
    grind [prioritised_cons, serverAt_cons]
  | case5 server next serverPp nextPp hgt hne ih =>
    grind [prioritised_cons, serverAt_cons]

/-- **DNS servers.** Whatever is configured and pulled, the lists are strictly ordered by
priority and have one entry for each priority asked for, with all that was set for it. After
the pull the list has the pulled servers, and the configured ones whose priority was not pulled;
nothing is left aside. -/
theorem dns_servers_merged (configured pulled : List (DnsServerOption δ)) :
    (Prioritised (dnsServerOptions zero configured) ∧ ∀ priority,
      serverAt (dnsServerOptions zero configured) priority = requestedOf zero configured priority) ∧
    let before := dnsOptionsPreprocessPull ⟨dnsServerOptions zero configured, []⟩
    let after := dnsOptionsPostprocessPull
      { before with servers := pulled.foldl (dnsServerOption zero) before.servers }
    Prioritised after.servers ∧ after.serversPrepull = [] ∧ ∀ priority,
      serverAt after.servers priority =
        (requestedOf zero pulled priority).or (requestedOf zero configured priority) := by
  have hconfigured := dnsServerOptions_spec zero configured
  have hpulled := dnsServerOptions_spec zero pulled
  obtain ⟨hsorted, -, hat⟩ := mergePrepull_spec hpulled.1 hconfigured.1
  refine ⟨hconfigured, hsorted, rfl, fun priority => ?_⟩
  rw [← hpulled.2, ← hconfigured.2]
  exact hat priority

end OpenVpn
