import GdutNet.Wireless.Ledger

/-!
# The forwarding table over many lives of the service

The ledgers of the routes are in memory: what a crashed service had added is in the
forwarding table, and in no ledger of the next one, which deletes the rows to its own
destinations when it starts. A run here is any sequence of starts, calls, stops and
crashes over one table, which also has the rows of others. Every call may fail; a crash
within a call is a call whose remaining Win32 calls fail, and a crash.
-/

namespace GdutNet

/-! ## Invariants of the adapter -/

namespace WirelessEgress

section Within

variable {T : Type} [EgressOps T] {D : List Ipv4Addr} {I : T → Prop} {e : WirelessEgress T}

/-- The calls of the adapter keep `I`, as long as the routes are to `D`. -/
structure KeptBy (D : List Ipv4Addr) (I : T → Prop) : Prop where
  add : ∀ {ops : T} {r : Entry}, I ops → r.1 ∈ D → I (EgressOps.addRoute ops r).1
  delete : ∀ {ops : T} {r : Entry}, I ops → r.1 ∈ D → I (EgressOps.deleteRoute ops r).1
  suppress : ∀ {ops : T} (ifindex target : ℕ),
    I ops → I (EgressOps.suppressMetric ops ifindex target)
  restore : ∀ {ops : T} (ifindex : ℕ), I ops → I (EgressOps.restoreMetric ops ifindex).1

/-- The egress has no route but to `D`. -/
structure Within (D : List Ipv4Addr) (I : T → Prop) (e : WirelessEgress T) : Prop where
  ops : I e.ops
  dests : ∀ d ∈ e.dests, d ∈ D
  added : ∀ r ∈ e.added, r.1 ∈ D

theorem KeptBy.retainWanted (h : KeptBy D I) (wanted : Entry → Bool) {rs : List Entry}
    (hrs : ∀ r ∈ rs, r.1 ∈ D) {ops : T} (hops : I ops) : I (retainWanted wanted rs ops).1 := by
  induction rs generalizing ops with
  | nil => exact hops
  | cons r rs ih =>
      obtain ⟨hr, hrest⟩ := List.forall_mem_cons.mp hrs
      unfold WirelessEgress.retainWanted
      split
      · exact ih hrest hops
      · have hdel := h.delete hops hr
        split
        · rename_i hcall
          rw [hcall] at hdel
          exact ih hrest hdel
        · rename_i hcall
          rw [hcall] at hdel
          exact ih hrest hdel

theorem KeptBy.addMissing (h : KeptBy D I) (endpoint : WlanEndpoint) {dests : List Ipv4Addr}
    (hdests : ∀ d ∈ dests, d ∈ D) {ops : T} (hops : I ops) (added : List Entry)
    (failure : Option String) : I (addMissing endpoint dests ops added failure).1 := by
  induction dests generalizing ops added failure with
  | nil => exact hops
  | cons dest dests ih =>
      obtain ⟨hdest, hrest⟩ := List.forall_mem_cons.mp hdests
      unfold WirelessEgress.addMissing
      dsimp only
      split
      · exact ih hrest hops added failure
      · have hadd := h.add (r := (dest, endpoint.gateway, endpoint.ifindex)) hops hdest
        split
        · rename_i hcall
          rw [hcall] at hadd
          exact ih hrest hadd _ _
        · rename_i hcall
          rw [hcall] at hadd
          exact ih hrest hadd _ _

theorem Within.releaseMetric (h : e.Within D I) (hI : KeptBy D I) :
    e.releaseMetric.1.Within D I := by
  unfold WirelessEgress.releaseMetric
  split
  · exact h
  · rename_i endpoint _
    have hrestore := hI.restore endpoint.ifindex h.ops
    split
    all_goals
      rename_i hcall
      rw [hcall] at hrestore
      exact ⟨hrestore, h.dests, h.added⟩

theorem Within.suppressMetric (h : e.Within D I) (hI : KeptBy D I) (endpoint : WlanEndpoint)
    (target : ℕ) : (e.suppressMetric endpoint target).Within D I := by
  unfold WirelessEgress.suppressMetric
  split
  · exact h
  · exact ⟨hI.suppress _ _ h.ops, h.dests, h.added⟩

theorem Within.retryCleanup (h : e.Within D I) (hI : KeptBy D I) :
    e.retryCleanup.1.Within D I := by
  have hops := hI.retainWanted e.wanted h.added h.ops
  have hsub := (retainWanted_spec e.wanted e.added e.ops).1
  have hretained : Within D I { e with
      ops := (WirelessEgress.retainWanted e.wanted e.added e.ops).1
      added := (WirelessEgress.retainWanted e.wanted e.added e.ops).2.1 } :=
    ⟨hops, h.dests, fun r hr => h.added r (hsub r hr)⟩
  unfold WirelessEgress.retryCleanup
  dsimp only
  split
  · have hmetric := hretained.releaseMetric hI
    split
    all_goals
      rename_i hcall
      rw [hcall] at hmetric
      exact hmetric
  · exact hretained

theorem Within.acquire (h : e.Within D I) (hI : KeptBy D I) (endpoint : WlanEndpoint) :
    (e.acquire endpoint).1.Within D I := by
  have hnew : Within D I { e with routeEndpoint := some endpoint } := ⟨h.ops, h.dests, h.added⟩
  have hclean := hnew.retryCleanup hI
  unfold WirelessEgress.acquire
  dsimp only
  refine ⟨hI.addMissing endpoint hclean.dests hclean.ops _ _, hclean.dests, ?_⟩
  intro r hr
  rcases (addMissing_spec endpoint _ _ _ _).1 r hr with hold | hvia
  · exact hclean.added r hold
  · obtain ⟨d, hd, rfl⟩ := List.mem_map.mp hvia
    exact hclean.dests d hd

theorem Within.release (h : e.Within D I) (hI : KeptBy D I) : e.release.1.Within D I := by
  have hnew : Within D I { e with routeEndpoint := none } := ⟨h.ops, h.dests, h.added⟩
  have hmetric := (hnew.retryCleanup hI).releaseMetric hI
  unfold WirelessEgress.release
  dsimp only
  split
  · exact ⟨hmetric.ops, hmetric.dests, hmetric.added⟩
  · exact hmetric

end Within

end WirelessEgress

/-- The destinations that a call makes the service's. -/
def EgressCall.dests : EgressCall → List Ipv4Addr
  | .ownDestinations dests => dests
  | _ => []

theorem WirelessEgress.Within.call {D : List Ipv4Addr} {I : RouteGuard → Prop} {e : Egress}
    (h : e.Within D I) (hI : KeptBy D I) {c : EgressCall} (hc : ∀ d ∈ c.dests, d ∈ D) :
    (e.call c).1.Within D I := by
  cases c with
  | ownDestinations dests =>
      have hnew : Within D I { e with dests } := ⟨h.ops, hc, h.added⟩
      exact hnew.retryCleanup hI
  | acquire endpoint => exact h.acquire hI endpoint
  | retryCleanup => exact h.retryCleanup hI
  | suppressMetric endpoint target => exact h.suppressMetric hI endpoint target
  | releaseMetric => exact h.releaseMetric hI
  | release => exact h.release hI

/-! ## One table -/

/-- The rows to other destinations. -/
def othersRows (D : List Ipv4Addr) (rows : List Entry) : List Entry :=
  rows.filter fun r => r.1 ∉ D

theorem othersRows_erase {D : List Ipv4Addr} {r : Entry} (hr : r.1 ∈ D) (rows : List Entry) :
    othersRows D (rows.erase r) = othersRows D rows := by
  unfold othersRows
  rw [← List.erase_filter, List.erase_of_not_mem]
  intro hmem
  have hout := (List.mem_filter.mp hmem).2
  simp [hr] at hout

/-- If none of the next calls fails, none of those behind the first does. -/
theorem later_calls {fault fault' : ℕ → Option ℕ} {calls calls' n : ℕ}
    (hfault : fault' = fault) (hcalls : calls' = calls + 1)
    (h : ∀ k < n + 1, fault (calls + k) = none) : ∀ k < n, fault' (calls' + k) = none := by
  intro k hk
  rw [hfault, hcalls, Nat.add_assoc, Nat.add_comm 1 k]
  exact h (k + 1) (Nat.succ_lt_succ hk)

theorem othersRows_snoc {D : List Ipv4Addr} {r : Entry} (hr : r.1 ∈ D) (rows : List Entry) :
    othersRows D (rows ++ [r]) = othersRows D rows := by
  simp [othersRows, hr]

namespace RouteGuard

/-- The guard over a table that began with `base`: the rows of others are there, and a
row in no ledger is one of `untracked`. -/
structure Tracked (D : List Ipv4Addr) (base untracked : List Entry) (g : RouteGuard) :
    Prop where
  keys : g.os.routes.Nodup
  others : othersRows D g.os.routes = othersRows D base
  known : ∀ r ∈ g.os.routes, r ∈ g.added ∨ r ∈ untracked
  mine : ∀ r ∈ g.added, r.1 ∈ D

variable {D : List Ipv4Addr} {base untracked : List Entry} {g g' : RouteGuard} {r : Entry}

theorem Tracked.of_rows (h : g.Tracked D base untracked) (heq : g'.rows = g.rows) :
    g'.Tracked D base untracked := by
  simp only [rows, Prod.mk.injEq] at heq
  obtain ⟨hadded, hroutes⟩ := heq
  constructor
  · rw [hroutes]
    exact h.keys
  · rw [hroutes]
    exact h.others
  · rw [hroutes, hadded]
    exact h.known
  · rw [hadded]
    exact h.mine

theorem addRoute_rows (g : RouteGuard) (r : Entry) :
    (g.addRoute r).1.rows = g.rows ∨
    ((g.addRoute r).1.added = g.added ++ [r] ∧
      (r ∈ g.os.routes ∧ (g.addRoute r).1.os.routes = g.os.routes ∨
        r ∉ g.os.routes ∧ (g.addRoute r).1.os.routes = g.os.routes ++ [r])) := by
  unfold addRoute
  split
  · exact .inl rfl
  · unfold routeAdd Os.createIpForwardEntry2 Os.called
    cases g.os.fault g.os.calls with
    | some code => exact .inl rfl
    | none =>
        by_cases hmem : r ∈ g.os.routes
        · simp [hmem]
        · simp [hmem]

theorem deleteRoute_rows (g : RouteGuard) (r : Entry) :
    (g.deleteRoute r).1.rows = g.rows ∨
    ((g.deleteRoute r).1.added = g.added.filter (· ≠ r) ∧
      (g.deleteRoute r).1.os.routes = g.os.routes.erase r) := by
  unfold deleteRoute routeDel Os.deleteIpForwardEntry2 Os.called
  cases g.os.fault g.os.calls with
  | some code => exact .inl rfl
  | none =>
      by_cases hmem : r ∈ g.os.routes
      · simp [hmem]
      · simp [hmem, List.erase_of_not_mem]

theorem Tracked.addRoute (h : g.Tracked D base untracked) (hr : r.1 ∈ D) :
    (g.addRoute r).1.Tracked D base untracked := by
  have hmine : ∀ q ∈ g.added ++ [r], q.1 ∈ D := by
    intro q hq
    rcases List.mem_append.mp hq with hq | hq
    · exact h.mine q hq
    · rwa [List.mem_singleton.mp hq]
  rcases g.addRoute_rows r with hsame | ⟨hadded, ⟨-, hroutes⟩ | ⟨hnew, hroutes⟩⟩
  · exact h.of_rows hsame
  · constructor
    · rw [hroutes]
      exact h.keys
    · rw [hroutes]
      exact h.others
    · rw [hroutes, hadded]
      intro q hq
      exact (h.known q hq).imp (List.mem_append_left _) id
    · rwa [hadded]
  · constructor
    · rw [hroutes, List.nodup_append]
      refine ⟨h.keys, List.nodup_singleton r, ?_⟩
      intro a ha b hb hab
      rw [List.mem_singleton.mp hb] at hab
      exact hnew (hab ▸ ha)
    · rw [hroutes, othersRows_snoc hr, h.others]
    · rw [hroutes, hadded]
      intro q hq
      rcases List.mem_append.mp hq with hq | hq
      · exact (h.known q hq).imp (List.mem_append_left _) id
      · exact .inl (List.mem_append_right _ hq)
    · rwa [hadded]

theorem Tracked.deleteRoute (h : g.Tracked D base untracked) (hr : r.1 ∈ D) :
    (g.deleteRoute r).1.Tracked D base untracked := by
  rcases g.deleteRoute_rows r with hsame | ⟨hadded, hroutes⟩
  · exact h.of_rows hsame
  · constructor
    · rw [hroutes]
      exact h.keys.erase r
    · rw [hroutes, othersRows_erase hr, h.others]
    · rw [hroutes, hadded]
      intro q hq
      obtain ⟨hne, hq⟩ := h.keys.mem_erase_iff.mp hq
      rcases h.known q hq with hold | hold
      · exact .inl (List.mem_filter.mpr ⟨hold, by simpa using hne⟩)
      · exact .inr hold
    · rw [hadded]
      exact fun q hq => h.mine q (List.mem_filter.mp hq).1

theorem tracked_kept : WirelessEgress.KeptBy D (Tracked D base untracked) where
  add h hr := h.addRoute hr
  delete h hr := h.deleteRoute hr
  suppress ifindex target h := h.of_rows (setStandbyMetric_rows _ ifindex target)
  restore _ h := h.of_rows (restoreMetric_rows _)

theorem Tracked.deleteAll (h : g.Tracked D base untracked) {rs : List Entry}
    (hrs : ∀ r ∈ rs, r.1 ∈ D) :
    (rs.foldl (fun g r => (g.deleteRoute r).1) g).Tracked D base untracked := by
  induction rs generalizing g with
  | nil => exact h
  | cons r rs ih =>
      obtain ⟨hr, hrest⟩ := List.forall_mem_cons.mp hrs
      exact ih (h.deleteRoute hr) hrest

theorem Tracked.teardown (h : g.Tracked D base untracked) :
    g.teardown.Tracked D base untracked :=
  (h.deleteAll h.mine).of_rows (restoreMetric_rows _)

/-- Where no delete fails, nothing of `rs` stays in the ledger. -/
theorem deleteAll_added {rs : List Entry} {g : RouteGuard}
    (hcalls : ∀ k < rs.length, g.os.fault (g.os.calls + k) = none) :
    (rs.foldl (fun g r => (g.deleteRoute r).1) g).added = g.added.filter (· ∉ rs) := by
  induction rs generalizing g with
  | nil => simp
  | cons r rs ih =>
      obtain ⟨hnext, hfault, -⟩ := WirelessEgress.deleteRoute_calls g r
      have hdone : (g.deleteRoute r).1.added = g.added.filter (· ≠ r) := by
        have hnone : g.os.fault g.os.calls = none := hcalls 0 (Nat.zero_lt_succ _)
        unfold deleteRoute routeDel Os.deleteIpForwardEntry2 Os.called
        by_cases hmem : r ∈ g.os.routes <;> simp [hnone, hmem]
      rw [List.foldl_cons, ih (later_calls hfault hnext hcalls), hdone, List.filter_filter]
      apply List.filter_congr
      intro q _
      by_cases hq : q = r <;> simp [hq]

theorem teardown_added {g : RouteGuard}
    (hcalls : ∀ k < g.added.length, g.os.fault (g.os.calls + k) = none) :
    g.teardown.added = [] := by
  have hrows := congrArg Prod.fst (restoreMetric_rows
    (g.added.foldl (fun g r => (g.deleteRoute r).1) g))
  have hall : g.added.filter (· ∉ g.added) = [] := by simp
  exact (hrows.trans (deleteAll_added hcalls)).trans hall

end RouteGuard

/-! ## The cleanup at the start -/

namespace Os

/-- The rows that `cleanup_stale` deletes; `foreign` rows are not of `NETMGMT`. -/
def stale (os : Os) (foreign : List Entry) (dests : List Ipv4Addr) : List Entry :=
  os.routes.filter fun r => r ∉ foreign && r.1 ∈ dests

def cleanup (os : Os) (foreign : List Entry) (dests : List Ipv4Addr) : Os :=
  match os.called with
  | (os, some _) => os
  | (os, none) => (os.stale foreign dests).foldl (fun os r => (routeDel os r).1) os

/-- The service's own rows: the cleanup of a table that has no others. -/
theorem cleanup_nil (os : Os) (dests : List Ipv4Addr) :
    os.cleanup [] dests = cleanupStale os dests := by
  unfold cleanup cleanupStale
  cases os.called with
  | mk os' fault =>
      cases fault with
      | some code => rfl
      | none => simp [stale]

theorem routeDel_calls (os : Os) (r : Entry) :
    (routeDel os r).1.calls = os.calls + 1 ∧ (routeDel os r).1.fault = os.fault ∧
    ((routeDel os r).1.routes = os.routes ∧ os.fault os.calls ≠ none ∨
      (routeDel os r).1.routes = os.routes.erase r) := by
  unfold routeDel deleteIpForwardEntry2 called
  cases hf : os.fault os.calls with
  | some code => exact ⟨rfl, rfl, .inl ⟨rfl, by simp⟩⟩
  | none =>
      by_cases hmem : r ∈ os.routes
      · simp [hmem]
      · simp [hmem, List.erase_of_not_mem]

/-- One table after some of its rows to `D` are deleted. -/
structure Thinned (D : List Ipv4Addr) (os os' : Os) : Prop where
  keys : os'.routes.Nodup
  others : othersRows D os'.routes = othersRows D os.routes
  sub : ∀ r ∈ os'.routes, r ∈ os.routes

variable {D : List Ipv4Addr} {os : Os}

theorem Thinned.delete {os' : Os} (h : Thinned D os os') {r : Entry} (hr : r.1 ∈ D) :
    Thinned D os (routeDel os' r).1 := by
  obtain ⟨-, -, ⟨hroutes, -⟩ | hroutes⟩ := routeDel_calls os' r
  · exact ⟨hroutes ▸ h.keys, hroutes ▸ h.others, hroutes ▸ h.sub⟩
  · constructor
    · rw [hroutes]
      exact h.keys.erase r
    · rw [hroutes, othersRows_erase hr, h.others]
    · rw [hroutes]
      exact fun q hq => h.sub q (List.mem_of_mem_erase hq)

theorem Thinned.deleteAll {os' : Os} (h : Thinned D os os') {rs : List Entry}
    (hrs : ∀ r ∈ rs, r.1 ∈ D) :
    Thinned D os (rs.foldl (fun os r => (routeDel os r).1) os') := by
  induction rs generalizing os' with
  | nil => exact h
  | cons r rs ih =>
      obtain ⟨hr, hrest⟩ := List.forall_mem_cons.mp hrs
      exact ih (h.delete hr) hrest

/-- Where no delete fails, all of `rs` is gone. -/
theorem deleteAll_gone {rs : List Entry} {os : Os} (hkeys : os.routes.Nodup)
    (hcalls : ∀ k < rs.length, os.fault (os.calls + k) = none) :
    ∀ r ∈ rs, r ∉ (rs.foldl (fun os r => (routeDel os r).1) os).routes := by
  induction rs generalizing os with
  | nil => exact fun _ hr => absurd hr List.not_mem_nil
  | cons r rs ih =>
      obtain ⟨hnext, hfault, hroutes⟩ := routeDel_calls os r
      have hnone : os.fault os.calls = none := hcalls 0 (Nat.zero_lt_succ _)
      have herased : (routeDel os r).1.routes = os.routes.erase r :=
        hroutes.resolve_left fun h => h.2 hnone
      have hkeys' : (routeDel os r).1.routes.Nodup := by
        rw [herased]
        exact hkeys.erase r
      intro q hq
      rcases List.mem_cons.mp hq with rfl | hq
      · -- the first row stays away while the others are deleted
        have hthin : Thinned (rs.map (·.1)) (routeDel os q).1
            (rs.foldl (fun os r => (routeDel os r).1) (routeDel os q).1) :=
          Thinned.deleteAll ⟨hkeys', rfl, fun _ h => h⟩
            fun r hr => List.mem_map_of_mem hr
        intro hmem
        have hold := hthin.sub q hmem
        rw [herased] at hold
        exact (hkeys.mem_erase_iff.mp hold).1 rfl
      · exact ih hkeys' (later_calls hfault hnext hcalls) q hq

theorem cleanup_thinned (hkeys : os.routes.Nodup) (foreign : List Entry)
    {dests : List Ipv4Addr} (hdests : ∀ d ∈ dests, d ∈ D) :
    Thinned D os (os.cleanup foreign dests) := by
  have hsame : Thinned D os { os with calls := os.calls + 1 } := ⟨hkeys, rfl, fun _ h => h⟩
  unfold cleanup called
  cases os.fault os.calls with
  | some code => exact hsame
  | none =>
      refine hsame.deleteAll ?_
      intro r hr
      have hstale := (List.mem_filter.mp hr).2
      simp only [Bool.and_eq_true, decide_eq_true_eq] at hstale
      exact hdests _ hstale.2

/-- A cleanup in which no call fails leaves no row of `NETMGMT` to its destinations. -/
theorem cleanup_foreign (hkeys : os.routes.Nodup) {foreign : List Entry}
    {dests : List Ipv4Addr}
    (hcalls : ∀ k ≤ (os.stale foreign dests).length, os.fault (os.calls + k) = none) :
    ∀ r ∈ (os.cleanup foreign dests).routes, r.1 ∈ dests → r ∈ foreign := by
  intro r hr hdest
  by_contra hforeign
  have hold : r ∈ os.routes := (cleanup_thinned hkeys foreign (fun _ h => h)).sub r hr
  have hstale : r ∈ os.stale foreign dests := by
    refine List.mem_filter.mpr ⟨hold, ?_⟩
    simp [hforeign, hdest]
  have hnone : os.fault os.calls = none := hcalls 0 (Nat.zero_le _)
  have hlater : ∀ k < (os.stale foreign dests).length, os.fault (os.calls + 1 + k) = none :=
    later_calls rfl rfl fun k hk => hcalls k (Nat.le_of_lt_succ hk)
  have hgone := @deleteAll_gone (os.stale foreign dests) { os with calls := os.calls + 1 }
    hkeys hlater r hstale
  unfold cleanup called at hr
  rw [hnone] at hr
  exact hgone hr

end Os

/-! ## Lives -/

inductive Life where
  | down (os : Os)
  | up (e : Egress)

namespace Life

def os : Life → Os
  | .down os => os
  | .up e => e.ops.os

def isUp : Life → Bool
  | .down _ => false
  | .up _ => true

end Life

structure Station where
  life : Life
  /-- The rows of the table that are not of `NETMGMT`. -/
  foreign : List Entry

inductive Station.Move where
  | start (dests : List Ipv4Addr)
  | call (c : EgressCall)
  | stop
  | crash

def Station.Move.dests : Move → List Ipv4Addr
  | .start dests => dests
  | .call c => c.dests
  | _ => []

namespace Station

def table (s : Station) : List Entry := s.life.os.routes

/-- The worker owns its destinations when it is built, and begins with the cleanup. -/
def started (os : Os) (foreign : List Entry) (dests : List Ipv4Addr) : Egress :=
  let e := (WirelessEgress.start os).ownDestinations dests
  { e with ops := { e.ops with os := e.ops.os.cleanup foreign dests } }

def move (s : Station) (m : Move) : Life :=
  match s.life, m with
  | .down os, .start dests => .up (started os s.foreign dests)
  | .up e, .call c => .up (e.call c).1
  | .up e, .stop => .down e.drop.os
  | .up e, .crash => .down e.ops.os
  | life, _ => life

/-- A row that was deleted is foreign no more; no call deletes a row and adds it again. -/
def step (s : Station) (m : Move) : Station × Unit :=
  (⟨s.move m, s.foreign.filter (· ∈ (s.move m).os.routes)⟩, ())

def after (os : Os) (foreign : List Entry) (moves : List Move) : Station :=
  Machine.final step ⟨.down os, foreign⟩ moves

variable {D : List Ipv4Addr} {base : List Entry} {s : Station}

theorem started_eq (os : Os) (foreign : List Entry) (dests : List Ipv4Addr) :
    started os foreign dests =
      { ops := { os := os.cleanup foreign dests }, dests } := rfl

/-- What holds of a life, or between two. -/
def Sound (D : List Ipv4Addr) (base : List Entry) (s : Station) : Prop :=
  match s.life with
  | .down os => os.routes.Nodup ∧ othersRows D os.routes = othersRows D base
  | .up e => ∃ untracked, e.Within D (RouteGuard.Tracked D base untracked)

theorem started_within {os : Os} (hkeys : os.routes.Nodup)
    (hbase : othersRows D os.routes = othersRows D base) (foreign : List Entry)
    {dests : List Ipv4Addr} (hdests : ∀ d ∈ dests, d ∈ D) :
    (started os foreign dests).Within D
      (RouteGuard.Tracked D base (os.cleanup foreign dests).routes) := by
  obtain ⟨hkeys', hothers, -⟩ := os.cleanup_thinned hkeys foreign hdests
  rw [started_eq]
  refine ⟨⟨hkeys', hothers.trans hbase, fun r hr => .inr hr, ?_⟩, hdests, ?_⟩
  · exact fun r hr => absurd hr List.not_mem_nil
  · exact fun r hr => absurd hr List.not_mem_nil

theorem drop_tracked {untracked : List Entry} {e : Egress}
    (h : e.Within D (RouteGuard.Tracked D base untracked)) :
    e.drop.Tracked D base untracked :=
  (h.release RouteGuard.tracked_kept).ops.teardown

theorem Sound.step (h : s.Sound D base) {m : Move} (hm : ∀ d ∈ m.dests, d ∈ D) :
    (s.step m).1.Sound D base := by
  obtain ⟨life, foreign⟩ := s
  cases life with
  | down os =>
      obtain ⟨hkeys, hbase⟩ := h
      cases m with
      | start dests => exact ⟨_, started_within hkeys hbase foreign hm⟩
      | _ => exact ⟨hkeys, hbase⟩
  | up e =>
      obtain ⟨untracked, hwithin⟩ := h
      cases m with
      | start dests => exact ⟨untracked, hwithin⟩
      | call c => exact ⟨untracked, hwithin.call RouteGuard.tracked_kept hm⟩
      | stop =>
          have hdrop := drop_tracked hwithin
          exact ⟨hdrop.keys, hdrop.others⟩
      | crash => exact ⟨hwithin.ops.keys, hwithin.ops.others⟩

theorem Sound.final (h : s.Sound D base) {moves : List Move}
    (hmoves : ∀ m ∈ moves, ∀ d ∈ m.dests, d ∈ D) :
    (Machine.final Station.step s moves).Sound D base := by
  induction moves generalizing s with
  | nil => exact h
  | cons m moves ih =>
      obtain ⟨hm, hrest⟩ := List.forall_mem_cons.mp hmoves
      exact ih (h.step hm) hrest

theorem Sound.table (h : s.Sound D base) :
    s.table.Nodup ∧ othersRows D s.table = othersRows D base := by
  obtain ⟨life, foreign⟩ := s
  cases life with
  | down os => exact h
  | up e =>
      obtain ⟨untracked, hwithin⟩ := h
      exact ⟨hwithin.ops.keys, hwithin.ops.others⟩

/-- Nothing becomes foreign. -/
theorem foreign_sub (s : Station) (moves : List Move) :
    ∀ r ∈ (Machine.final step s moves).foreign, r ∈ s.foreign := by
  induction moves generalizing s with
  | nil => exact fun _ h => h
  | cons m moves ih =>
      intro r hr
      have hnext := ih (s.step m).1 r hr
      exact (List.mem_filter.mp hnext).1

theorem calls_life (e : Egress) (foreign : List Entry) (calls : List EgressCall) :
    (Machine.final step ⟨.up e, foreign⟩ (calls.map .call)).life =
      .up (Machine.final WirelessEgress.call e calls) := by
  induction calls generalizing e foreign with
  | nil => rfl
  | cons c calls ih => exact ih _ _

theorem calls_within {I : RouteGuard → Prop} (hI : WirelessEgress.KeptBy D I) {e : Egress}
    (h : e.Within D I) {calls : List EgressCall} (hcalls : ∀ c ∈ calls, ∀ d ∈ c.dests, d ∈ D) :
    (Machine.final WirelessEgress.call e calls).Within D I := by
  induction calls generalizing e with
  | nil => exact h
  | cons c calls ih =>
      obtain ⟨hc, hrest⟩ := List.forall_mem_cons.mp hcalls
      exact ih (h.call hI hc) hrest

/-- The life that a start and the calls after it make. -/
def lifeOf (s : Station) (dests : List Ipv4Addr) (calls : List EgressCall) : Egress :=
  Machine.final WirelessEgress.call (started s.life.os s.foreign dests) calls

theorem lifeOf_eq (hdown : s.life.isUp = false) (dests : List Ipv4Addr)
    (calls : List EgressCall) :
    (Machine.final step s (.start dests :: calls.map .call)).life =
      .up (s.lifeOf dests calls) := by
  obtain ⟨life, foreign⟩ := s
  cases life with
  | down os => exact calls_life _ _ calls
  | up e => cases hdown

/-- What a life tracks when no call of its cleanup fails. -/
theorem lifeOf_tracked (hkeys : s.table.Nodup) (dests : List Ipv4Addr)
    (calls : List EgressCall) :
    ∃ D, (s.lifeOf dests calls).Within D
      (RouteGuard.Tracked D s.table (s.life.os.cleanup s.foreign dests).routes) := by
  refine ⟨dests ++ calls.flatMap EgressCall.dests, ?_⟩
  refine calls_within RouteGuard.tracked_kept
    (started_within hkeys rfl s.foreign fun d hd => List.mem_append_left _ hd) ?_
  intro c hc d hd
  exact List.mem_append_right _ (List.mem_flatMap.mpr ⟨c, hc, hd⟩)

/-- **Routes over crashes.** In every sequence of starts, calls, stops and crashes, with
any failures, the rows to destinations that are never the service's are the ones that were
there, in their order. From a start whose cleanup has no failure on, whatever was left
behind before and whatever fails later, every row to its destinations is in the ledger or
foreign from the beginning; and a drop whose last deletes do not fail leaves no other. -/
theorem routes_recovered (os : Os) (foreign : List Entry) (hkeys : os.routes.Nodup)
    (moves : List Move) :
    (∀ D : List Ipv4Addr, (∀ m ∈ moves, ∀ d ∈ m.dests, d ∈ D) →
      othersRows D (after os foreign moves).table = othersRows D os.routes) ∧
    ∀ dests, (after os foreign moves).life.isUp = false →
      (∀ k ≤ ((after os foreign moves).life.os.stale (after os foreign moves).foreign
          dests).length, (after os foreign moves).life.os.fault
            ((after os foreign moves).life.os.calls + k) = none) →
      ∀ calls : List EgressCall, ∃ e : Egress,
        (after os foreign (moves ++ .start dests :: calls.map .call)).life = .up e ∧
        (∀ r ∈ e.ops.os.routes, r.1 ∈ dests → r ∈ e.ops.added ∨ r ∈ foreign) ∧
        ((∀ k < e.release.1.ops.added.length,
            e.release.1.ops.os.fault (e.release.1.ops.os.calls + k) = none) →
          ∀ r ∈ e.drop.os.routes, r.1 ∈ dests → r ∈ foreign) := by
  have hsound (D : List Ipv4Addr) (hD : ∀ m ∈ moves, ∀ d ∈ m.dests, d ∈ D) :
      (after os foreign moves).Sound D os.routes :=
    Sound.final (s := ⟨.down os, foreign⟩) ⟨hkeys, rfl⟩ hD
  refine ⟨fun D hD => (hsound D hD).table.2, ?_⟩
  intro dests hdown hcleanup calls
  have hkeys' : (after os foreign moves).table.Nodup :=
    (hsound (moves.flatMap Move.dests)
      fun m hm d hd => List.mem_flatMap.mpr ⟨m, hm, hd⟩).table.1
  have hstart := Os.cleanup_foreign hkeys' hcleanup
  have hforeign : ∀ r ∈ (after os foreign moves).foreign, r ∈ foreign :=
    foreign_sub ⟨.down os, foreign⟩ moves
  obtain ⟨D, hwithin⟩ := lifeOf_tracked hkeys' dests calls
  refine ⟨(after os foreign moves).lifeOf dests calls, ?_, ?_, ?_⟩
  · rw [after, Machine.final_append]
    exact lifeOf_eq hdown dests calls
  · intro r hr hdest
    rcases hwithin.ops.known r hr with hmine | hold
    · exact .inl hmine
    · exact .inr (hforeign r (hstart r hold hdest))
  · intro hlast r hr hdest
    have hdrop := drop_tracked hwithin
    rcases hdrop.known r hr with hmine | hold
    · have hnone := RouteGuard.teardown_added hlast
      unfold WirelessEgress.drop at hmine
      rw [hnone] at hmine
      exact absurd hmine List.not_mem_nil
    · exact hforeign r (hstart r hold hdest)

/-- A user's own row to the portal, over another interface, and one to elsewhere. -/
def userRows : List Entry :=
  [(⟨10, 0, 3, 2⟩, ⟨192, 168, 1, 1⟩, 7), (⟨8, 8, 8, 8⟩, ⟨192, 168, 1, 1⟩, 7)]

/-- The service crashes with both of its routes in the table. -/
def crashedLife : List Move :=
  [.start [⟨10, 0, 3, 2⟩, ⟨223, 5, 5, 5⟩], .call (.acquire WirelessEgress.campusEndpoint),
    .crash]

theorem routes_recovered_crash :
    (after { WirelessEgress.plainOs with routes := userRows } userRows crashedLife).table =
      userRows ++ [(⟨10, 0, 3, 2⟩, ⟨10, 1, 1, 1⟩, 15), (⟨223, 5, 5, 5⟩, ⟨10, 1, 1, 1⟩, 15)] ∧
    ∃ e : Egress,
      (after { WirelessEgress.plainOs with routes := userRows } userRows
        (crashedLife ++ [.start [⟨10, 0, 3, 2⟩, ⟨223, 5, 5, 5⟩]])).life = .up e ∧
      ∀ r ∈ e.ops.os.routes, r.1 ∈ [(⟨10, 0, 3, 2⟩ : Ipv4Addr), ⟨223, 5, 5, 5⟩] →
        r ∈ e.ops.added ∨ r ∈ userRows := by
  obtain ⟨-, hlives⟩ := routes_recovered { WirelessEgress.plainOs with routes := userRows }
    userRows (by decide) crashedLife
  obtain ⟨e, hup, hledger, -⟩ := hlives [⟨10, 0, 3, 2⟩, ⟨223, 5, 5, 5⟩] rfl
    (fun _ _ => rfl) []
  exact ⟨by decide, e, hup, hledger⟩

end Station

end GdutNet
