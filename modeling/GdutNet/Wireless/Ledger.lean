import GdutNet.Machine.Trace
import GdutNet.Wireless.Routes
import Mathlib.Data.List.Nodup

/-!
# The two ledgers and the forwarding table

`WirelessEgress` over `RouteGuard` as a machine: a run is a sequence of calls,
and the fault oracle inside the operating system lets any of the calls under
them fail. Three lists describe the service's routes, the egress's ledger, the
guard's and the table itself. `Synced` says that they are one duplicate-free
list; each operation keeps it, whatever fails.
-/

namespace GdutNet

/-- The egress as the service runs it. -/
abbrev Egress : Type := WirelessEgress RouteGuard

inductive EgressCall where
  | ownDestinations (dests : List Ipv4Addr)
  | acquire (endpoint : WlanEndpoint)
  | retryCleanup
  | suppressMetric (endpoint : WlanEndpoint) (target : ℕ)
  | releaseMetric
  | release
deriving DecidableEq, Repr

namespace WirelessEgress

def call (e : Egress) : EgressCall → Egress × Except String Unit
  | .ownDestinations dests => (e.ownDestinations dests, .ok ())
  | .acquire endpoint => ((e.acquire endpoint).1, (e.acquire endpoint).2.map (fun _ => ()))
  | .retryCleanup => e.retryCleanup
  | .suppressMetric endpoint target => (e.suppressMetric endpoint target, .ok ())
  | .releaseMetric => e.releaseMetric
  | .release => e.release

def start (os : Os) : Egress := .new (.new os)

def after (os : Os) (calls : List EgressCall) : Egress :=
  Machine.final call (start os) calls

/-- Dropping the pair: the egress releases, then its guard is torn down. -/
def drop (e : Egress) : RouteGuard := e.release.1.ops.teardown

end WirelessEgress

/-! ## The guard and the table -/

namespace RouteGuard

/-- The guard's ledger is the service's part of the table. -/
structure Synced (g : RouteGuard) : Prop where
  table : g.os.routes = g.added
  nodup : g.added.Nodup

theorem addRoute_synced {g : RouteGuard} (h : g.Synced) {r : Entry} (hr : r ∉ g.added) :
    (g.addRoute r).1.Synced ∧
    ((g.addRoute r).2 = .ok () → (g.addRoute r).1.added = g.added ++ [r]) ∧
    (∀ msg, (g.addRoute r).2 = .error msg → (g.addRoute r).1.added = g.added) := by
  have hnew : r ∉ g.os.routes := by rwa [h.table]
  have hnodup : (g.added ++ [r]).Nodup := by
    rw [List.nodup_append]
    refine ⟨h.nodup, List.nodup_singleton r, ?_⟩
    intro a ha b hb hab
    rw [List.mem_singleton.mp hb] at hab
    exact hr (hab ▸ ha)
  unfold addRoute
  rw [if_neg hr]
  unfold routeAdd Os.createIpForwardEntry2 Os.called
  cases hf : g.os.fault g.os.calls with
  | some code => exact ⟨⟨h.table, h.nodup⟩, by simp, by simp⟩
  | none =>
      simp only [hnew, if_false]
      exact ⟨⟨by simp [h.table], hnodup⟩, by simp, by simp⟩

theorem deleteRoute_synced {g : RouteGuard} (h : g.Synced) (r : Entry) :
    (g.deleteRoute r).1.Synced ∧
    ((g.deleteRoute r).2 = .ok () →
      (g.deleteRoute r).1.added = g.added.filter (· ≠ r)) ∧
    (∀ msg, (g.deleteRoute r).2 = .error msg → (g.deleteRoute r).1.added = g.added) := by
  have hfilter : g.os.routes.erase r = g.added.filter (· ≠ r) := by
    rw [h.table, h.nodup.erase_eq_filter]
    apply List.filter_congr
    intro a _
    by_cases ha : a = r <;> simp [ha]
  have hnodup : (g.added.filter (· ≠ r)).Nodup := h.nodup.filter _
  unfold deleteRoute routeDel Os.deleteIpForwardEntry2 Os.called
  cases hf : g.os.fault g.os.calls with
  | some code => exact ⟨⟨h.table, h.nodup⟩, by simp, by simp⟩
  | none =>
      simp only
      by_cases hmem : r ∈ g.os.routes
      · simp only [hmem, if_true]
        exact ⟨⟨hfilter, hnodup⟩, by simp, by simp⟩
      · -- an absent row counts as deleted
        simp only [hmem, if_false]
        refine ⟨⟨?_, hnodup⟩, by simp, by simp⟩
        rw [← hfilter, List.erase_of_not_mem hmem]

/-- The part of the guard that the routes are in. -/
def rows (g : RouteGuard) : List Entry × List Entry := (g.added, g.os.routes)

theorem Synced.of_rows {g g' : RouteGuard} (h : g.Synced) (heq : g'.rows = g.rows) :
    g'.Synced := by
  simp only [rows, Prod.mk.injEq] at heq
  obtain ⟨hadded, hroutes⟩ := heq
  exact ⟨by rw [hroutes, hadded]; exact h.table, by rw [hadded]; exact h.nodup⟩

theorem restoreMetric_rows (g : RouteGuard) : g.restoreMetric.1.rows = g.rows := by
  have h := g.restoreMetric_restored
  generalize g.restoreMetric = done at h ⊢
  cases h with
  | nothing _ => rfl
  | failed _ hroutes _ _ => exact congrArg (Prod.mk g.added) hroutes
  | done _ hroutes _ _ => exact congrArg (Prod.mk g.added) hroutes

theorem Opened.rows {g g' : RouteGuard} {ifindex : ℕ} (h : Opened g ifindex g') :
    g'.rows = g.rows := by
  cases h with
  | held _ _ => rfl
  | taken _ hget =>
      have hroutes := (g.os.getIpInterfaceEntry_spec ifindex).1
      rw [hget] at hroutes
      exact congrArg (Prod.mk g.added) hroutes

theorem setStandbyMetric_rows (g : RouteGuard) (ifindex target : ℕ) :
    (g.setStandbyMetric ifindex target).rows = g.rows := by
  have h := g.setStandbyMetric_pressed ifindex target
  generalize g.setStandbyMetric ifindex target = g' at h ⊢
  cases h with
  | idle => rfl
  | unread hget =>
      have hroutes := (g.os.getIpInterfaceEntry_spec ifindex).1
      rw [hget] at hroutes
      exact congrArg (Prod.mk g.added) hroutes
  | @failed g₁ os msg _ hopen hset =>
      have hroutes := (setMetric_spec g₁.os ifindex target).routes
      rw [hset] at hroutes
      rw [← hopen.rows]
      exact congrArg (Prod.mk _) hroutes
  | @done g₁ os _ hopen hset =>
      have hroutes := (setMetric_spec g₁.os ifindex target).routes
      rw [hset] at hroutes
      rw [← hopen.rows]
      exact congrArg (Prod.mk _) hroutes

end RouteGuard

/-! ## The egress and the guard -/

namespace WirelessEgress

open RouteGuard

/-- Both ledgers and the table are one list. -/
structure Synced (e : Egress) : Prop where
  guard : e.ops.Synced
  ledger : e.added = e.ops.added

/-- Deleting from the front of what is left: `kept` was looked at already. -/
theorem retainWanted_synced (wanted : Entry → Bool) (rs kept : List Entry) {g : RouteGuard}
    (h : g.Synced) (hadded : g.added = kept ++ rs) :
    (retainWanted wanted rs g).1.Synced ∧
    (retainWanted wanted rs g).1.added = kept ++ (retainWanted wanted rs g).2.1 := by
  induction rs generalizing kept g with
  | nil => exact ⟨h, hadded⟩
  | cons r rs ih =>
      have hnext : g.added = (kept ++ [r]) ++ rs := by simpa using hadded
      unfold retainWanted
      split
      · obtain ⟨hsynced, hrows⟩ := ih (kept ++ [r]) h hnext
        exact ⟨hsynced, by simpa using hrows⟩
      · obtain ⟨hdeleted, hok, herr⟩ := deleteRoute_synced h r
        split
        · rename_i g' hdel
          change g.deleteRoute r = (g', .ok ()) at hdel
          rw [hdel] at hdeleted hok
          have hrest : g'.added = kept ++ rs := by
            have hnodup : (kept ++ r :: rs).Nodup := by
              rw [← hadded]
              exact h.nodup
            have hgone : r ∉ kept ++ rs := (List.nodup_middle.mp hnodup).notMem
            rw [hok rfl, hadded, List.filter_append, List.filter_cons_of_neg (by simp),
              ← List.filter_append]
            apply List.filter_eq_self.mpr
            intro q hq
            have hne : q ≠ r := fun heq => hgone (heq ▸ hq)
            simpa using hne
          exact ih kept hdeleted hrest
        · rename_i g' msg hdel
          change g.deleteRoute r = (g', .error msg) at hdel
          rw [hdel] at hdeleted herr
          obtain ⟨hsynced, hrows⟩ := ih (kept ++ [r]) hdeleted ((herr msg rfl).trans hnext)
          exact ⟨hsynced, by simpa using hrows⟩

theorem addMissing_synced (endpoint : WlanEndpoint) (dests : List Ipv4Addr)
    {g : RouteGuard} (h : g.Synced) (failure : Option String) :
    (addMissing endpoint dests g g.added failure).1.Synced ∧
    (addMissing endpoint dests g g.added failure).1.added =
      (addMissing endpoint dests g g.added failure).2.1 := by
  induction dests generalizing g failure with
  | nil => exact ⟨h, rfl⟩
  | cons dest dests ih =>
      unfold addMissing
      dsimp only
      split
      · exact ih h failure
      · rename_i hnew
        obtain ⟨hadded, hok, herr⟩ := addRoute_synced h hnew
        split
        · rename_i g' hadd
          change g.addRoute _ = (g', .ok ()) at hadd
          rw [hadd] at hadded hok
          rw [← hok rfl]
          exact ih hadded failure
        · rename_i g' msg hadd
          change g.addRoute _ = (g', .error msg) at hadd
          rw [hadd] at hadded herr
          rw [← herr msg rfl]
          exact ih hadded (some msg)

theorem Synced.releaseMetric {e : Egress} (h : e.Synced) : e.releaseMetric.1.Synced := by
  have hrows := e.ops.restoreMetric_rows
  unfold WirelessEgress.releaseMetric
  split
  · exact h
  · split
    all_goals
      rename_i hr
      change e.ops.restoreMetric = _ at hr
      rw [hr] at hrows
      exact ⟨h.guard.of_rows hrows, h.ledger.trans (congrArg Prod.fst hrows).symm⟩

theorem Synced.suppressMetric {e : Egress} (h : e.Synced) (endpoint : WlanEndpoint)
    (target : ℕ) : (e.suppressMetric endpoint target).Synced := by
  have hrows := e.ops.setStandbyMetric_rows endpoint.ifindex target
  unfold WirelessEgress.suppressMetric
  split
  · exact h
  · exact ⟨h.guard.of_rows hrows, h.ledger.trans (congrArg Prod.fst hrows).symm⟩

theorem Synced.retryCleanup {e : Egress} (h : e.Synced) : e.retryCleanup.1.Synced := by
  obtain ⟨hsynced, hadded⟩ := retainWanted_synced e.wanted e.added [] h.guard h.ledger.symm
  have hretained : Synced { e with
      ops := (retainWanted e.wanted e.added e.ops).1
      added := (retainWanted e.wanted e.added e.ops).2.1 } := ⟨hsynced, hadded.symm⟩
  unfold WirelessEgress.retryCleanup
  dsimp only
  split
  · have hmetric := hretained.releaseMetric
    split
    all_goals
      rename_i hr
      rw [hr] at hmetric
      exact hmetric
  · exact hretained

theorem Synced.acquire {e : Egress} (h : e.Synced) (endpoint : WlanEndpoint) :
    (e.acquire endpoint).1.Synced := by
  have hnew : Synced { e with routeEndpoint := some endpoint } := ⟨h.guard, h.ledger⟩
  have hclean := hnew.retryCleanup
  unfold WirelessEgress.acquire
  dsimp only
  rw [hclean.ledger]
  obtain ⟨hsynced, hadded⟩ := addMissing_synced endpoint _ hclean.guard _
  exact ⟨hsynced, hadded.symm⟩

theorem Synced.release {e : Egress} (h : e.Synced) : e.release.1.Synced := by
  have hnew : Synced { e with routeEndpoint := none } := ⟨h.guard, h.ledger⟩
  have hmetric := hnew.retryCleanup.releaseMetric
  unfold WirelessEgress.release
  dsimp only
  split
  · exact ⟨hmetric.guard, hmetric.ledger⟩
  · exact hmetric

theorem Synced.call {e : Egress} (h : e.Synced) (c : EgressCall) : (e.call c).1.Synced := by
  cases c with
  | ownDestinations dests =>
      have hnew : Synced { e with dests } := ⟨h.guard, h.ledger⟩
      exact hnew.retryCleanup
  | acquire endpoint => exact h.acquire endpoint
  | retryCleanup => exact h.retryCleanup
  | suppressMetric endpoint target => exact h.suppressMetric endpoint target
  | releaseMetric => exact h.releaseMetric
  | release => exact h.release

theorem after_synced {os : Os} (hstart : os.routes = []) (calls : List EgressCall) :
    (after os calls).Synced := by
  apply Machine.final_induction
  · intro e c h
    exact h.call c
  · exact ⟨⟨hstart, List.nodup_nil⟩, rfl⟩

/-! ## Releasing and dropping -/

/-- Nothing is wanted once the endpoint is given up. -/
theorem not_wanted_of_released (e : Egress) (r : Entry) :
    wanted { e with routeEndpoint := none } r = false := by
  simp [wanted]

theorem release_added (e : Egress) :
    e.release.1.added =
      (retainWanted (wanted { e with routeEndpoint := none }) e.added e.ops).2.1 := by
  have hclean := congrArg (fun b => b.2.1) (retryCleanup_books { e with routeEndpoint := none })
  have hmetric := congrArg (fun b => b.2.1)
    (releaseMetric_books (WirelessEgress.retryCleanup { e with routeEndpoint := none }).1)
  unfold WirelessEgress.release
  dsimp only
  split <;> exact hmetric.trans hclean

theorem release_ok_added {e : Egress} (h : e.release.2 = .ok ()) : e.release.1.added = [] := by
  have hroutes : (WirelessEgress.retryCleanup { e with routeEndpoint := none }).2 = .ok () := by
    unfold WirelessEgress.release at h
    dsimp only at h
    split at h
    · assumption
    · cases h
  have hwanted := (retainWanted_spec (wanted { e with routeEndpoint := none }) e.added
    e.ops).2.2 (retryCleanup_ok hroutes)
  rw [release_added]
  apply List.eq_nil_iff_forall_not_mem.mpr
  intro r hr
  have hr' := hwanted r hr
  rw [not_wanted_of_released] at hr'
  cases hr'

theorem deleteRoute_calls (g : RouteGuard) (r : Entry) :
    (g.deleteRoute r).1.os.calls = g.os.calls + 1 ∧
    (g.deleteRoute r).1.os.fault = g.os.fault ∧
    (g.os.fault g.os.calls = none → (g.deleteRoute r).2 = .ok ()) := by
  unfold RouteGuard.deleteRoute routeDel Os.deleteIpForwardEntry2 Os.called
  cases hf : g.os.fault g.os.calls with
  | some code => exact ⟨rfl, rfl, by simp⟩
  | none =>
      by_cases hmem : r ∈ g.os.routes
      · simp [hmem]
      · simp [hmem]

/-- Without a fault in the next calls every unwanted route goes. -/
theorem retainWanted_none {wanted : Entry → Bool} {rs : List Entry}
    (hwanted : ∀ r ∈ rs, wanted r = false) {g : RouteGuard}
    (hcalls : ∀ k < rs.length, g.os.fault (g.os.calls + k) = none) :
    (retainWanted wanted rs g).2.1 = [] := by
  induction rs generalizing g with
  | nil => rfl
  | cons r rs ih =>
      obtain ⟨hr, hrs⟩ := List.forall_mem_cons.mp hwanted
      obtain ⟨hnext, hfault, hok⟩ := deleteRoute_calls g r
      have hdone := hok (by simpa using hcalls 0 (by simp))
      unfold retainWanted
      rw [if_neg (by simp [hr])]
      split
      · rename_i g' hdel
        change g.deleteRoute r = (g', .ok ()) at hdel
        rw [hdel] at hnext hfault
        apply ih hrs
        intro k hk
        have hlater := hcalls (k + 1) (by simpa using hk)
        change g'.os.fault (g'.os.calls + k) = none
        rw [hfault, hnext, Nat.add_assoc, Nat.add_comm 1 k]
        exact hlater
      · rename_i g' msg hdel
        change g.deleteRoute r = (g', .error msg) at hdel
        rw [hdel] at hdone
        cases hdone

theorem Synced.drop_routes {e : Egress} (h : e.Synced)
    (hdeletes : ∀ k < e.added.length, e.ops.os.fault (e.ops.os.calls + k) = none) :
    e.drop.os.routes = [] := by
  have hsynced := h.release
  have hempty : e.release.1.ops.added = [] := by
    rw [← hsynced.ledger, release_added]
    exact retainWanted_none (fun r _ => not_wanted_of_released e r) hdeletes
  have hrows := congrArg Prod.snd (restoreMetric_rows e.release.1.ops)
  unfold drop teardown
  rw [hempty]
  refine hrows.trans ?_
  exact hsynced.guard.table.trans hempty

/-- **The route ledger is exact**, after any calls, whichever of the calls under
them fail. Dropping the pair deletes first what the ledger holds, so the calls
that must succeed there are the next ones, one for each route. -/
theorem route_ledger_exact (os : Os) (hstart : os.routes = []) (calls : List EgressCall) :
    (after os calls).added = (after os calls).ops.added ∧ (after os calls).added.Nodup ∧
    (∀ r, r ∈ (after os calls).ops.os.routes ↔ r ∈ (after os calls).added) ∧
    (∀ endpoint settle, ((after os calls).acquire endpoint).2 = .ok settle →
      ∀ r, r ∈ ((after os calls).acquire endpoint).1.added ↔
        r ∈ routesVia (after os calls).dests endpoint) ∧
    ((after os calls).release.2 = .ok () → (after os calls).release.1.added = []) ∧
    ((after os calls).hasPendingCleanup = false → ∀ r ∈ (after os calls).added,
      r.1 ∈ (after os calls).dests ∧
        (after os calls).routeEndpoint = some ⟨r.2.1, r.2.2⟩) ∧
    ((∀ k < (after os calls).added.length,
        (after os calls).ops.os.fault ((after os calls).ops.os.calls + k) = none) →
      (after os calls).drop.os.routes = []) := by
  have hsynced := after_synced hstart calls
  refine ⟨hsynced.ledger, ?_, ?_, ?_, release_ok_added, ?_, hsynced.drop_routes⟩
  · rw [hsynced.ledger]
    exact hsynced.guard.nodup
  · intro r
    rw [hsynced.guard.table, hsynced.ledger]
  · intro endpoint settle hok
    obtain ⟨hdests, hexact⟩ := acquire_spec (after os calls) endpoint
    rw [← hdests]
    exact (hexact settle hok).ledger
  · intro hclean r hr
    simp only [hasPendingCleanup, Bool.or_eq_false_iff, List.any_eq_false] at hclean
    have hwanted := hclean.2 r hr
    simpa [wanted] using hwanted

/-- Nothing fails, and every interface has an automatic metric. -/
def plainOs : Os := { ifaces := fun _ => some ⟨25, true⟩, fault := fun _ => none }

def campusEndpoint : WlanEndpoint := ⟨⟨10, 1, 1, 1⟩, 15⟩

/-- The portal and the probe host, acquired over the campus WLAN. -/
def acquireCalls : List EgressCall :=
  [.ownDestinations [⟨10, 0, 3, 2⟩, ⟨223, 5, 5, 5⟩], .acquire campusEndpoint]

theorem route_ledger_exact_two_routes :
    (after plainOs acquireCalls).added =
      [(⟨10, 0, 3, 2⟩, ⟨10, 1, 1, 1⟩, 15), (⟨223, 5, 5, 5⟩, ⟨10, 1, 1, 1⟩, 15)] ∧
    (after plainOs acquireCalls).added = (after plainOs acquireCalls).ops.added ∧
    (after plainOs acquireCalls).drop.os.routes = [] := by
  obtain ⟨hledger, -, -, -, -, -, hdrop⟩ := route_ledger_exact plainOs rfl acquireCalls
  exact ⟨by decide, hledger, hdrop (by decide)⟩

end WirelessEgress

end GdutNet
