import GdutNet.Wireless.Ledger

/-!
# Giving the metrics back

The guard has one slot for the metric of an interface before the service first
touched it. `Kept` says that every interface but the one in the slot has its
original row, and that the slot holds the original of its own. A suppression on
another interface takes the slot over, and the original it held is lost: the
source expects the old interface to be gone by then. Where that is so, every
release gives everything back.
-/

namespace GdutNet

/-- The interfaces' original rows. -/
abbrev Rows : Type := ℕ → Option IfRow

namespace RouteGuard

/-- What the slot and the interfaces have to say about the originals. -/
structure Kept (original : Rows) (g : RouteGuard) : Prop where
  others : ∀ i row, g.os.ifaces i = some row →
    (∀ saved, g.savedMetric = some saved → saved.1 ≠ i) → original i = some row
  slot : ∀ saved, g.savedMetric = some saved → original saved.1 = some ⟨saved.2.1, saved.2.2⟩

/-- The part of the guard that the metrics are in. -/
def metrics (g : RouteGuard) : Option (ℕ × ℕ × Bool) × Rows := (g.savedMetric, g.os.ifaces)

theorem Kept.of_metrics {original : Rows} {g g' : RouteGuard} (h : g.Kept original)
    (heq : g'.metrics = g.metrics) : g'.Kept original := by
  simp only [metrics, Prod.mk.injEq] at heq
  obtain ⟨hsaved, hifaces⟩ := heq
  constructor
  · rw [hifaces, hsaved]
    exact h.others
  · rw [hsaved]
    exact h.slot

/-- With an empty slot every interface has its original row. -/
theorem Kept.original_of_empty {original : Rows} {g : RouteGuard} (h : g.Kept original)
    (hempty : g.savedMetric = none) (i : ℕ) (row : IfRow) (hrow : g.os.ifaces i = some row) :
    original i = some row := by
  apply h.others i row hrow
  intro saved hsaved
  rw [hempty] at hsaved
  cases hsaved

theorem addRoute_metrics (g : RouteGuard) (r : Entry) :
    (g.addRoute r).1.metrics = g.metrics := by
  unfold addRoute
  split
  · rfl
  · unfold routeAdd Os.createIpForwardEntry2 Os.called
    cases g.os.fault g.os.calls with
    | some code => rfl
    | none =>
        by_cases hmem : r ∈ g.os.routes
        · simp [hmem, metrics]
        · simp [hmem, metrics]

theorem deleteRoute_metrics (g : RouteGuard) (r : Entry) :
    (g.deleteRoute r).1.metrics = g.metrics := by
  unfold deleteRoute routeDel Os.deleteIpForwardEntry2 Os.called
  cases g.os.fault g.os.calls with
  | some code => rfl
  | none =>
      by_cases hmem : r ∈ g.os.routes
      · simp [hmem, metrics]
      · simp [hmem, metrics]

/-- Restoring keeps the originals, and empties the slot if it succeeds. -/
theorem Kept.restoreMetric {original : Rows} {g : RouteGuard} (h : g.Kept original) :
    g.restoreMetric.1.Kept original ∧
      (g.restoreMetric.2 = .ok () → g.restoreMetric.1.savedMetric = none) := by
  have hr := g.restoreMetric_restored
  generalize g.restoreMetric = done at hr ⊢
  cases hr with
  | nothing hsaved => exact ⟨h.of_metrics rfl, fun _ => hsaved⟩
  | @failed saved os msg hsaved _ hothers _ =>
      refine ⟨⟨?_, h.slot⟩, by simp⟩
      intro i row hrow hslot
      have hne : i ≠ saved.1 := fun heq => hslot saved hsaved heq.symm
      rw [hothers i hne] at hrow
      exact h.others i row hrow hslot
  | @done saved os hsaved _ hifaces _ =>
      refine ⟨⟨?_, by simp⟩, fun _ => rfl⟩
      intro i row hrow _
      rw [hifaces, Os.written] at hrow
      split at hrow
      · rename_i hi
        rw [hi, h.slot saved hsaved]
        exact hrow
      · rename_i hi
        apply h.others i row hrow
        intro saved' hsaved' heq
        rw [hsaved] at hsaved'
        rw [← Option.some.inj hsaved'] at heq
        exact hi heq.symm

/-- The interface in the slot is the one to suppress, or is gone, or is back at
its original. -/
def SlotFree (g : RouteGuard) (ifindex : ℕ) : Prop :=
  ∀ saved, g.savedMetric = some saved → saved.1 ≠ ifindex →
    ∀ row, g.os.ifaces saved.1 = some row → row = ⟨saved.2.1, saved.2.2⟩

/-- Taking the slot over loses nothing if it is free. -/
theorem Kept.opened {original : Rows} {g g' : RouteGuard} {ifindex : ℕ}
    (h : g.Kept original) (hfree : g.SlotFree ifindex) (hopen : g.Opened ifindex g') :
    g'.Kept original ∧ ∃ saved, g'.savedMetric = some saved ∧ saved.1 = ifindex := by
  cases hopen with
  | @held saved hsaved hindex => exact ⟨h, saved, hsaved, hindex⟩
  | @taken os row hother hget =>
      obtain ⟨-, hifaces, hread⟩ := g.os.getIpInterfaceEntry_spec ifindex
      rw [hget] at hifaces hread
      change os.ifaces = g.os.ifaces at hifaces
      have hrow : original ifindex = some row := h.others ifindex row (hread row rfl) hother
      refine ⟨⟨?_, ?_⟩, _, rfl, rfl⟩
      · intro i row' hrow' _
        rw [hifaces] at hrow'
        by_cases hslot : ∃ saved, g.savedMetric = some saved ∧ saved.1 = i
        · obtain ⟨saved, hsaved, rfl⟩ := hslot
          rw [hfree saved hsaved (hother saved hsaved) row' hrow']
          exact h.slot saved hsaved
        · apply h.others i row' hrow'
          intro saved hsaved heq
          exact hslot ⟨saved, hsaved, heq⟩
      · intro saved hsaved
        rw [← Option.some.inj hsaved]
        exact hrow

theorem Kept.setStandbyMetric {original : Rows} {g : RouteGuard} (h : g.Kept original)
    {ifindex target : ℕ} (hfree : target ≠ 0 → g.SlotFree ifindex) :
    (g.setStandbyMetric ifindex target).Kept original := by
  have hp := g.setStandbyMetric_pressed ifindex target
  generalize g.setStandbyMetric ifindex target = pressed at hp ⊢
  cases hp with
  | idle => exact h
  | @unread os err hget =>
      have hifaces := (g.os.getIpInterfaceEntry_spec ifindex).2.1
      rw [hget] at hifaces
      exact h.of_metrics (congrArg (Prod.mk g.savedMetric) hifaces)
  | @failed g' os msg htarget hopen hset =>
      have hspec := setMetric_spec g'.os ifindex target
      rw [hset] at hspec
      have hkept := (h.opened (hfree htarget) hopen).1
      exact hkept.of_metrics (congrArg (Prod.mk g'.savedMetric) (hspec.error msg rfl))
  | @done g' os htarget hopen hset =>
      have hspec := setMetric_spec g'.os ifindex target
      rw [hset] at hspec
      obtain ⟨old, -, hwritten⟩ := hspec.ok rfl
      obtain ⟨hkept, saved, hsaved, hindex⟩ := h.opened (hfree htarget) hopen
      refine ⟨?_, hkept.slot⟩
      intro i row hrow hslot
      change os.ifaces i = some row at hrow
      have hne : i ≠ ifindex := fun heq => hslot saved hsaved (hindex.trans heq.symm)
      change os.ifaces = _ at hwritten
      rw [hwritten, Os.written, if_neg hne] at hrow
      exact hkept.others i row hrow hslot

/-- An interface is unplugged. -/
def vanish (g : RouteGuard) (ifindex : ℕ) : RouteGuard :=
  { g with os := { g.os with ifaces := fun i => if i = ifindex then none else g.os.ifaces i } }

theorem Kept.vanish {original : Rows} {g : RouteGuard} (h : g.Kept original) (ifindex : ℕ) :
    (g.vanish ifindex).Kept original := by
  refine ⟨?_, h.slot⟩
  intro i row hrow hslot
  simp only [RouteGuard.vanish] at hrow
  split at hrow
  · cases hrow
  · exact h.others i row hrow hslot

end RouteGuard

/-! ## The egress -/

namespace WirelessEgress

open RouteGuard

theorem retainWanted_metrics (wanted : Entry → Bool) (rs : List Entry) (g : RouteGuard) :
    (retainWanted wanted rs g).1.metrics = g.metrics := by
  induction rs generalizing g with
  | nil => rfl
  | cons r rs ih =>
      unfold retainWanted
      split
      · exact ih g
      · have hdeleted := g.deleteRoute_metrics r
        split
        all_goals
          rename_i hdel
          change g.deleteRoute r = _ at hdel
          rw [hdel] at hdeleted
          exact (ih _).trans hdeleted

theorem addMissing_metrics (endpoint : WlanEndpoint) (dests : List Ipv4Addr)
    (g : RouteGuard) (added : List Entry) (failure : Option String) :
    (addMissing endpoint dests g added failure).1.metrics = g.metrics := by
  induction dests generalizing g added failure with
  | nil => rfl
  | cons dest dests ih =>
      unfold addMissing
      dsimp only
      split
      · exact ih g added failure
      · have hadded := g.addRoute_metrics (dest, endpoint.gateway, endpoint.ifindex)
        split
        all_goals
          rename_i hadd
          change g.addRoute _ = _ at hadd
          rw [hadd] at hadded
          exact (ih _ _ _).trans hadded

/-- The guard keeps the originals, and an egress that was never applied has
none to give back. -/
structure Kept (original : Rows) (e : Egress) : Prop where
  guard : e.ops.Kept original
  idle : e.appliedEndpoint = none → e.ops.savedMetric = none

theorem Kept.of_metrics {original : Rows} {e e' : Egress} (h : e.Kept original)
    (heq : e'.ops.metrics = e.ops.metrics)
    (happlied : e'.appliedEndpoint = none → e.appliedEndpoint = none) :
    e'.Kept original := by
  refine ⟨h.guard.of_metrics heq, ?_⟩
  intro hnone
  exact (congrArg Prod.fst heq).trans (h.idle (happlied hnone))

theorem Kept.releaseMetric {original : Rows} {e : Egress} (h : e.Kept original) :
    e.releaseMetric.1.Kept original ∧
      (e.releaseMetric.2 = .ok () → e.releaseMetric.1.ops.savedMetric = none) := by
  obtain ⟨hkept, hempty⟩ := h.guard.restoreMetric
  unfold WirelessEgress.releaseMetric
  split
  · rename_i hnone
    exact ⟨h, fun _ => h.idle hnone⟩
  · rename_i endpoint happlied
    split
    · rename_i g' hr
      change e.ops.restoreMetric = _ at hr
      rw [hr] at hkept hempty
      exact ⟨⟨hkept, fun _ => hempty rfl⟩, fun _ => hempty rfl⟩
    · rename_i g' msg hr
      change e.ops.restoreMetric = _ at hr
      rw [hr] at hkept
      refine ⟨⟨hkept, ?_⟩, by simp⟩
      intro hnone
      rw [happlied] at hnone
      cases hnone

theorem Kept.retryCleanup {original : Rows} {e : Egress} (h : e.Kept original) :
    e.retryCleanup.1.Kept original := by
  have hretained : Kept original { e with
      ops := (retainWanted e.wanted e.added e.ops).1
      added := (retainWanted e.wanted e.added e.ops).2.1 } :=
    h.of_metrics (retainWanted_metrics e.wanted e.added e.ops) id
  unfold WirelessEgress.retryCleanup
  dsimp only
  split
  · have hmetric := hretained.releaseMetric.1
    split
    all_goals
      rename_i hr
      rw [hr] at hmetric
      exact hmetric
  · exact hretained

theorem Kept.acquire {original : Rows} {e : Egress} (h : e.Kept original)
    (endpoint : WlanEndpoint) : (e.acquire endpoint).1.Kept original := by
  have hnew : Kept original { e with routeEndpoint := some endpoint } := ⟨h.guard, h.idle⟩
  have hclean := hnew.retryCleanup
  unfold WirelessEgress.acquire
  dsimp only
  exact hclean.of_metrics (addMissing_metrics _ _ _ _ _) (by simp)

theorem Kept.suppressMetric {original : Rows} {e : Egress} (h : e.Kept original)
    (endpoint : WlanEndpoint) {target : ℕ}
    (hfree : target ≠ 0 → e.ops.SlotFree endpoint.ifindex) :
    (e.suppressMetric endpoint target).Kept original := by
  unfold WirelessEgress.suppressMetric
  split
  · exact h
  · exact ⟨h.guard.setStandbyMetric hfree, by simp⟩

/-- A release that succeeds has emptied the slot. -/
theorem Kept.release {original : Rows} {e : Egress} (h : e.Kept original) :
    e.release.1.Kept original ∧
      (e.release.2 = .ok () → e.release.1.ops.savedMetric = none) := by
  have hnew : Kept original { e with routeEndpoint := none } := ⟨h.guard, h.idle⟩
  obtain ⟨hkept, hempty⟩ := hnew.retryCleanup.releaseMetric
  unfold WirelessEgress.release
  dsimp only
  split
  · rename_i hmetric
    exact ⟨⟨hkept.guard, fun _ => hempty hmetric⟩, fun _ => hempty hmetric⟩
  · rename_i msg hmetric
    refine ⟨hkept, ?_⟩
    intro hok
    rw [hmetric] at hok
    split at hok <;> cases hok

/-! ## Runs

Between the calls an interface may go away; nobody else writes a row. -/

inductive EgressAct where
  | call (c : EgressCall)
  | vanish (ifindex : ℕ)
deriving DecidableEq, Repr

def act (e : Egress) : EgressAct → Egress × Except String Unit
  | .call c => e.call c
  | .vanish ifindex => ({ e with ops := e.ops.vanish ifindex }, .ok ())

abbrev EgressRecord : Type := Machine.Step Egress EgressAct (Except String Unit)

def history (os : Os) (acts : List EgressAct) : List EgressRecord :=
  Machine.trace act (start os) acts

/-- A suppression finds the slot empty, taken by its own interface, or holding
an interface that is gone or back at its original. -/
def FindsSlotFree (r : EgressRecord) : Prop :=
  ∀ endpoint target, r.input = .call (.suppressMetric endpoint target) → target ≠ 0 →
    r.pre.ops.SlotFree endpoint.ifindex

/-- The call reports that the metric is given back. -/
def ReportsRelease (r : EgressRecord) : Prop :=
  (r.input = .call .release ∨ r.input = .call .releaseMetric) ∧ r.out = .ok ()

/-- Every interface that still exists has its row of `original`. -/
def GivenBack (original : Rows) (e : Egress) : Prop :=
  ∀ i row, e.ops.os.ifaces i = some row → original i = some row

theorem Kept.call {original : Rows} {e : Egress} (h : e.Kept original) (c : EgressCall)
    (hfree : ∀ endpoint target, c = .suppressMetric endpoint target → target ≠ 0 →
      e.ops.SlotFree endpoint.ifindex) : (e.call c).1.Kept original := by
  cases c with
  | ownDestinations dests =>
      have hnew : Kept original { e with dests } := ⟨h.guard, h.idle⟩
      exact hnew.retryCleanup
  | acquire endpoint => exact h.acquire endpoint
  | retryCleanup => exact h.retryCleanup
  | suppressMetric endpoint target =>
      exact h.suppressMetric endpoint (hfree endpoint target rfl)
  | releaseMetric => exact h.releaseMetric.1
  | release => exact h.release.1

theorem Kept.act {original : Rows} {e : Egress} (h : e.Kept original) (a : EgressAct)
    (hfree : FindsSlotFree (Machine.stepAt WirelessEgress.act e a)) :
    (e.act a).1.Kept original := by
  cases a with
  | call c =>
      apply h.call c
      intro endpoint target hc
      exact hfree endpoint target (congrArg EgressAct.call hc)
  | vanish ifindex => exact ⟨h.guard.vanish ifindex, h.idle⟩

theorem history_kept (os : Os) (acts : List EgressAct)
    (hfree : ∀ r ∈ history os acts, FindsSlotFree r) :
    (Machine.final act (start os) acts).Kept os.ifaces := by
  have hstart : (start os).Kept os.ifaces :=
    ⟨⟨fun _ _ hrow _ => hrow, fun _ hsaved => by cases hsaved⟩, fun _ => rfl⟩
  exact Machine.history_induction (I := fun _ e => e.Kept os.ifaces) hstart
    (fun _ _ a h hok => h.act a hok) acts hfree

/-- **Every release gives all metrics back**, in a run whose suppressions find
the slot free, whichever calls fail. -/
theorem release_restores_metrics (os : Os) (acts : List EgressAct)
    (hfree : ∀ r ∈ history os acts, FindsSlotFree r) :
    ∀ r ∈ history os acts, ReportsRelease r → GivenBack os.ifaces r.post := by
  intro r hr hreport
  obtain ⟨past, rest, hsplit⟩ := List.append_of_mem hr
  obtain ⟨xs, a, ys, -, hpast, rfl, -⟩ := Machine.trace_split hsplit
  have hkept : (Machine.final act (start os) xs).Kept os.ifaces := by
    apply history_kept
    intro q hq
    apply hfree
    rw [hsplit, hpast]
    exact List.mem_append_left _ hq
  obtain ⟨hcall, hok⟩ := hreport
  simp only [Machine.stepAt_input, Machine.stepAt_out, Machine.stepAt_post] at hcall hok ⊢
  rcases hcall with rfl | rfl
  · obtain ⟨hpost, hempty⟩ := hkept.release
    exact hpost.guard.original_of_empty (hempty hok)
  · obtain ⟨hpost, hempty⟩ := hkept.releaseMetric
    exact hpost.guard.original_of_empty (hempty hok)

/-- The campus WLAN pressed below the wired metric, then released. -/
def pressAndRelease : List EgressAct :=
  [.call (.suppressMetric campusEndpoint 100), .call .release]

theorem release_restores_metrics_pressed :
    ((after plainOs [.suppressMetric campusEndpoint 100]).ops.os.ifaces 15 =
      some ⟨100, false⟩) ∧
    ∀ r ∈ history plainOs pressAndRelease, ReportsRelease r →
      GivenBack plainOs.ifaces r.post := by
  refine ⟨by decide, release_restores_metrics plainOs pressAndRelease ?_⟩
  intro r hr endpoint target hcall _ saved hsaved
  simp only [history, pressAndRelease, Machine.trace_cons, Machine.trace_nil,
    List.mem_cons, List.not_mem_nil, or_false] at hr
  rcases hr with rfl | rfl
  · cases hsaved
  · cases hcall

/-- A second WLAN adapter. -/
def otherEndpoint : WlanEndpoint := ⟨⟨10, 2, 2, 1⟩, 16⟩

/-- Two adapters pressed one after the other: the slot is taken over while the
first one is still there. -/
def pressTwo : List EgressAct :=
  [.call (.suppressMetric campusEndpoint 100), .call (.suppressMetric otherEndpoint 100),
    .call .release]

theorem release_leaves_metric :
    ¬ ∀ (os : Os) (acts : List EgressAct), ∀ r ∈ history os acts, ReportsRelease r →
      GivenBack os.ifaces r.post := by
  intro h
  have hlast : Machine.stepAt act (Machine.final act (start plainOs) (pressTwo.take 2))
      (.call .release) ∈ history plainOs pressTwo := by
    simp [history, pressTwo, Machine.trace_cons]
  have hback := h plainOs pressTwo _ hlast ⟨.inl rfl, by decide⟩ 15 ⟨100, false⟩ (by decide)
  exact absurd hback (by decide)

end WirelessEgress

end GdutNet
