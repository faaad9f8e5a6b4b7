import GdutNet.Config

/-!
# The wireless egress

`wireless/egress.rs`: the ledger of /32 host routes the service owns, the
metric suppression and their release. The module decides and keeps the books;
the operating system is reached through the `EgressOps` adapter, whose calls
may fail one by one.
-/

namespace GdutNet

/-- Wait after the routes are written, before the first request. -/
def routeSettle : Duration := .fromSecs 3

structure WlanEndpoint where
  gateway : Ipv4Addr
  ifindex : ℕ
deriving DecidableEq, Repr

/-- `(dest, gateway, ifindex)`. -/
abbrev Entry : Type := Ipv4Addr × Ipv4Addr × ℕ

instance : LawfulBEq Entry := inferInstance

/-- A fallible call that changed `T`: the error is the message of the report. -/
abbrev Called (T : Type) : Type := T × Except String Unit

class EgressOps (T : Type) where
  addRoute : T → Entry → Called T
  deleteRoute : T → Entry → Called T
  suppressMetric : T → ℕ → ℕ → T
  restoreMetric : T → ℕ → Called T

structure WirelessEgress (T : Type) where
  ops : T
  dests : List Ipv4Addr := []
  added : List Entry := []
  appliedEndpoint : Option WlanEndpoint := none
  routeEndpoint : Option WlanEndpoint := none
  metricReleasePending : Bool := false

namespace WirelessEgress

variable {T : Type}

def new (ops : T) : WirelessEgress T := { ops }

/-- The route is one the service wants now: its destination is owned and its
endpoint is the current one. -/
def wanted (e : WirelessEgress T) (r : Entry) : Bool :=
  r.1 ∈ e.dests && e.routeEndpoint = some ⟨r.2.1, r.2.2⟩

def hasPendingCleanup (e : WirelessEgress T) : Bool :=
  e.metricReleasePending || e.added.any (fun r => !e.wanted r)

section Ops

variable [EgressOps T]

/-- The `retain` of `retry_cleanup`: delete what is not wanted and keep what
could not be deleted. The last failure is reported. -/
def retainWanted (wanted : Entry → Bool) :
    List Entry → T → T × List Entry × Option String
  | [], ops => (ops, [], none)
  | r :: rs, ops =>
      if wanted r then
        let (ops, rows, failure) := retainWanted wanted rs ops
        (ops, r :: rows, failure)
      else match EgressOps.deleteRoute ops r with
        | (ops, .ok ()) => retainWanted wanted rs ops
        | (ops, .error msg) =>
            let (ops, rows, failure) := retainWanted wanted rs ops
            (ops, r :: rows, failure.or (some msg))

def releaseMetric (e : WirelessEgress T) : WirelessEgress T × Except String Unit :=
  match e.appliedEndpoint with
  | none => (e, .ok ())
  | some endpoint =>
      match EgressOps.restoreMetric e.ops endpoint.ifindex with
      | (ops, .ok ()) => ({ e with ops, metricReleasePending := false }, .ok ())
      | (ops, .error msg) => ({ e with ops, metricReleasePending := true }, .error msg)

/-- `None` is success. -/
def outcome (failure : Option String) : Except String Unit :=
  match failure with
  | some msg => .error msg
  | none => .ok ()

def retryCleanup (e : WirelessEgress T) : WirelessEgress T × Except String Unit :=
  let (ops, added, failure) := retainWanted e.wanted e.added e.ops
  let e := { e with ops, added }
  if e.metricReleasePending then
    match e.releaseMetric with
    | (e, .error msg) => (e, .error msg)
    | (e, .ok ()) => (e, outcome failure)
  else (e, outcome failure)

def ownDestinations (e : WirelessEgress T) (dests : List Ipv4Addr) :
    WirelessEgress T :=
  ({ e with dests }).retryCleanup.1

/-- The loop of `acquire`: add what the ledger does not hold yet. -/
def addMissing (endpoint : WlanEndpoint) :
    List Ipv4Addr → T → List Entry → Option String → T × List Entry × Option String
  | [], ops, added, failure => (ops, added, failure)
  | dest :: dests, ops, added, failure =>
      let want : Entry := (dest, endpoint.gateway, endpoint.ifindex)
      if want ∈ added then addMissing endpoint dests ops added failure
      else match EgressOps.addRoute ops want with
        | (ops, .ok ()) => addMissing endpoint dests ops (added ++ [want]) failure
        | (ops, .error msg) => addMissing endpoint dests ops added (some msg)

def acquire (e : WirelessEgress T) (endpoint : WlanEndpoint) :
    WirelessEgress T × Except String Duration :=
  let e := { e with routeEndpoint := some endpoint }
  let (e, cleaned) := e.retryCleanup
  let failure := match cleaned with
    | .ok () => none
    | .error msg => some msg
  let (ops, added, failure) := addMissing endpoint e.dests e.ops e.added failure
  ({ e with ops, added, appliedEndpoint := some endpoint },
    match failure with
    | some msg => .error msg
    | none => .ok routeSettle)

def suppressMetric (e : WirelessEgress T) (endpoint : WlanEndpoint) (target : ℕ) :
    WirelessEgress T :=
  if target = 0 then e
  else { e with metricReleasePending := false
                ops := EgressOps.suppressMetric e.ops endpoint.ifindex target
                appliedEndpoint := some endpoint }

/-- Full release. A failed part stays in the books for the next cleanup. -/
def release (e : WirelessEgress T) : WirelessEgress T × Except String Unit :=
  let e := { e with routeEndpoint := none }
  let (e, routes) := e.retryCleanup
  let (e, metric) := e.releaseMetric
  let e := match metric with
    | .ok () => { e with appliedEndpoint := none }
    | .error _ => e
  (e, match routes with
    | .ok () => metric
    | .error msg => .error msg)

end Ops

/-! ## The ledger -/

/-- The /32 routes of all owned destinations through one endpoint. -/
def routesVia (dests : List Ipv4Addr) (endpoint : WlanEndpoint) : List Entry :=
  dests.map (fun dest => (dest, endpoint.gateway, endpoint.ifindex))

/-- The ledger is what an acquired `endpoint` needs, no more and no less. -/
structure Exact (e : WirelessEgress T) (endpoint : WlanEndpoint) : Prop where
  current : e.routeEndpoint = some endpoint
  ledger : ∀ r, r ∈ e.added ↔ r ∈ routesVia e.dests endpoint

/-- The ledger's share of the state. -/
def books (e : WirelessEgress T) : List Ipv4Addr × List Entry × Option WlanEndpoint :=
  (e.dests, e.added, e.routeEndpoint)

theorem Exact.of_books {e e' : WirelessEgress T} {endpoint : WlanEndpoint}
    (h : e.Exact endpoint) (hb : e'.books = e.books) : e'.Exact endpoint := by
  simp only [books, Prod.mk.injEq] at hb
  obtain ⟨hd, ha, hr⟩ := hb
  exact ⟨hr.trans h.current, by rw [ha, hd]; exact h.ledger⟩

section Spec

variable [EgressOps T]

/-- Only unwanted routes go, and all of them unless a call failed. -/
theorem retainWanted_spec (wanted : Entry → Bool) (rs : List Entry) (ops : T) :
    (∀ r ∈ (retainWanted wanted rs ops).2.1, r ∈ rs) ∧
    (∀ r ∈ rs, wanted r = true → r ∈ (retainWanted wanted rs ops).2.1) ∧
    ((retainWanted wanted rs ops).2.2 = none →
      ∀ r ∈ (retainWanted wanted rs ops).2.1, wanted r = true) := by
  induction rs generalizing ops with
  | nil => simp [retainWanted]
  | cons r rs ih =>
      unfold retainWanted
      split
      · rename_i hw
        obtain ⟨hsub, hkeep, hclean⟩ := ih ops
        refine ⟨?_, ?_, ?_⟩
        · exact List.forall_mem_cons.mpr
            ⟨List.mem_cons_self, fun q hq => List.mem_cons_of_mem _ (hsub q hq)⟩
        · exact List.forall_mem_cons.mpr
            ⟨fun _ => List.mem_cons_self, fun q hq h => List.mem_cons_of_mem _ (hkeep q hq h)⟩
        · exact fun hf => List.forall_mem_cons.mpr ⟨hw, hclean hf⟩
      · rename_i hw
        split
        · rename_i ops' _
          obtain ⟨hsub, hkeep, hclean⟩ := ih ops'
          refine ⟨fun q hq => List.mem_cons_of_mem _ (hsub q hq), ?_, hclean⟩
          exact List.forall_mem_cons.mpr ⟨fun h => absurd h hw, hkeep⟩
        · rename_i ops' msg _
          obtain ⟨hsub, hkeep, -⟩ := ih ops'
          refine ⟨?_, ?_, ?_⟩
          · exact List.forall_mem_cons.mpr
              ⟨List.mem_cons_self, fun q hq => List.mem_cons_of_mem _ (hsub q hq)⟩
          · exact List.forall_mem_cons.mpr
              ⟨fun h => absurd h hw, fun q hq h => List.mem_cons_of_mem _ (hkeep q hq h)⟩
          · simp

theorem releaseMetric_books (e : WirelessEgress T) : e.releaseMetric.1.books = e.books := by
  unfold releaseMetric
  split
  · rfl
  · split <;> rfl

theorem suppressMetric_books (e : WirelessEgress T) (endpoint : WlanEndpoint) (target : ℕ) :
    (e.suppressMetric endpoint target).books = e.books := by
  unfold suppressMetric
  split <;> rfl

theorem retryCleanup_books (e : WirelessEgress T) :
    e.retryCleanup.1.books =
      (e.dests, (retainWanted e.wanted e.added e.ops).2.1, e.routeEndpoint) := by
  unfold retryCleanup
  dsimp only
  split
  · have h := releaseMetric_books
      { e with ops := (retainWanted e.wanted e.added e.ops).1
               added := (retainWanted e.wanted e.added e.ops).2.1 }
    split
    all_goals
      rename_i hr
      rw [hr] at h
      exact h
  · rfl

theorem retryCleanup_ok {e : WirelessEgress T} (h : e.retryCleanup.2 = .ok ()) :
    (retainWanted e.wanted e.added e.ops).2.2 = none := by
  cases hf : (retainWanted e.wanted e.added e.ops).2.2 with
  | none => rfl
  | some msg =>
      unfold retryCleanup at h
      dsimp only at h
      rw [hf] at h
      split at h
      · split at h <;> simp [outcome] at h
      · simp [outcome] at h

/-- A cleanup has nothing to do on an exact ledger. -/
theorem Exact.retryCleanup {e : WirelessEgress T} {endpoint : WlanEndpoint}
    (h : e.Exact endpoint) : e.retryCleanup.1.Exact endpoint := by
  have hb := e.retryCleanup_books
  simp only [books, Prod.mk.injEq] at hb
  obtain ⟨hd, ha, hr⟩ := hb
  obtain ⟨hsub, hkeep, -⟩ := retainWanted_spec e.wanted e.added e.ops
  refine ⟨hr.trans h.current, fun r => ?_⟩
  rw [ha, hd, ← h.ledger r]
  refine ⟨hsub r, fun hmem => hkeep r hmem ?_⟩
  obtain ⟨dest, hdest, rfl⟩ := List.mem_map.mp ((h.ledger r).mp hmem)
  simp [wanted, hdest, h.current]

theorem addMissing_spec (endpoint : WlanEndpoint) (dests : List Ipv4Addr) (ops : T)
    (added : List Entry) (failure : Option String) :
    (∀ r ∈ (addMissing endpoint dests ops added failure).2.1,
      r ∈ added ∨ r ∈ routesVia dests endpoint) ∧
    (∀ r ∈ added, r ∈ (addMissing endpoint dests ops added failure).2.1) ∧
    ((addMissing endpoint dests ops added failure).2.2 = none → failure = none ∧
      ∀ r ∈ routesVia dests endpoint,
        r ∈ (addMissing endpoint dests ops added failure).2.1) := by
  induction dests generalizing ops added failure with
  | nil => simp [addMissing, routesVia]
  | cons dest dests ih =>
      unfold addMissing
      dsimp only
      split
      · rename_i hold
        obtain ⟨hsub, hkeep, hall⟩ := ih ops added failure
        refine ⟨fun r hr => (hsub r hr).imp id (List.mem_cons_of_mem _), hkeep, fun hf => ?_⟩
        exact ⟨(hall hf).1, List.forall_mem_cons.mpr ⟨hkeep _ hold, (hall hf).2⟩⟩
      · split
        · rename_i ops' _
          obtain ⟨hsub, hkeep, hall⟩ :=
            ih ops' (added ++ [(dest, endpoint.gateway, endpoint.ifindex)]) failure
          refine ⟨fun r hr => ?_, fun r hr => hkeep r (List.mem_append_left _ hr), fun hf => ?_⟩
          · rcases hsub r hr with h | h
            · rcases List.mem_append.mp h with h | h
              · exact .inl h
              · exact .inr (List.mem_cons.mpr (.inl (List.mem_singleton.mp h)))
            · exact .inr (List.mem_cons_of_mem _ h)
          · exact ⟨(hall hf).1, List.forall_mem_cons.mpr
              ⟨hkeep _ (List.mem_append_right _ (by simp)), (hall hf).2⟩⟩
        · rename_i ops' msg _
          obtain ⟨hsub, hkeep, hall⟩ := ih ops' added (some msg)
          exact ⟨fun r hr => (hsub r hr).imp id (List.mem_cons_of_mem _), hkeep,
            fun hf => absurd (hall hf).1 (by simp)⟩

/-- The destinations stay, and a successful acquisition leaves the exact ledger. -/
theorem acquire_spec (e : WirelessEgress T) (endpoint : WlanEndpoint) :
    (e.acquire endpoint).1.dests = e.dests ∧
      ∀ d, (e.acquire endpoint).2 = .ok d → (e.acquire endpoint).1.Exact endpoint := by
  unfold acquire
  dsimp only
  have hb := retryCleanup_books { e with routeEndpoint := some endpoint }
  have hok := @retryCleanup_ok _ _ { e with routeEndpoint := some endpoint }
  have hretain := retainWanted_spec (T := T)
    (wanted { e with routeEndpoint := some endpoint }) e.added e.ops
  generalize retryCleanup { e with routeEndpoint := some endpoint } = p at hb hok ⊢
  obtain ⟨e', cleaned⟩ := p
  simp only [books, Prod.mk.injEq] at hb hok ⊢
  obtain ⟨hd, ha, hr⟩ := hb
  refine ⟨hd, fun d hres => ⟨hr, fun r => ?_⟩⟩
  cases cleaned with
  | error msg =>
      have hall := (addMissing_spec endpoint e'.dests e'.ops e'.added (some msg)).2.2
      cases hf : (addMissing endpoint e'.dests e'.ops e'.added (some msg)).2.2 with
      | none => simpa using (hall hf).1
      | some m => simp [hf] at hres
  | ok u =>
      obtain ⟨hsub, -, hall⟩ := addMissing_spec endpoint e'.dests e'.ops e'.added none
      cases hf : (addMissing endpoint e'.dests e'.ops e'.added none).2.2 with
      | some m => simp [hf] at hres
      | none =>
          refine ⟨fun hmem => (hsub r hmem).elim (fun hold => ?_) id, (hall hf).2 r⟩
          -- what the cleanup left is wanted, hence a route of the new endpoint
          rw [ha] at hold
          have hw := hretain.2.2 (hok rfl) r hold
          simp only [wanted, Bool.and_eq_true, decide_eq_true_eq, Option.some.injEq] at hw
          rw [hd]
          exact List.mem_map.mpr ⟨r.1, hw.1, by rw [hw.2]⟩

theorem release_dests (e : WirelessEgress T) : e.release.1.dests = e.dests := by
  have hc := congrArg (·.1) (retryCleanup_books { e with routeEndpoint := none })
  have hm := congrArg (·.1) (releaseMetric_books
    (retryCleanup { e with routeEndpoint := none }).1)
  unfold release
  dsimp only
  split <;> exact hm.trans hc

end Spec

end WirelessEgress

end GdutNet
