import GdutNet.Wireless.Egress

/-!
# The route guard

`wireless/routes.rs`: the Windows adapter behind `EgressOps`. The operating
system is part of the guard's state here: the service's rows of the forwarding
table and the metric of each interface. Every Win32 call consumes one answer of
the fault oracle; a faulty call reports its code and changes nothing.
-/

namespace GdutNet

/-! ## The Win32 calls -/

inductive Win32 where
  | success
  | objectAlreadyExists
  | notFound
  | failed (code : ℕ)
deriving DecidableEq, Repr

def Win32.code : Win32 → ℕ
  | .success => 0
  | .objectAlreadyExists => 5010
  | .notFound => 1168
  | .failed code => code

structure IfRow where
  metric : ℕ
  useAutomaticMetric : Bool
deriving DecidableEq, Repr

structure Os where
  routes : List Entry := []
  ifaces : ℕ → Option IfRow
  fault : ℕ → Option ℕ
  calls : ℕ := 0

namespace Os

/-- Account for one call: its fault, if it has one. -/
def called (os : Os) : Os × Option ℕ :=
  ({ os with calls := os.calls + 1 }, os.fault os.calls)

def createIpForwardEntry2 (os : Os) (r : Entry) : Os × Win32 :=
  match os.called with
  | (os, some code) => (os, .failed code)
  | (os, none) =>
      if r ∈ os.routes then (os, .objectAlreadyExists)
      else ({ os with routes := os.routes ++ [r] }, .success)

def deleteIpForwardEntry2 (os : Os) (r : Entry) : Os × Win32 :=
  match os.called with
  | (os, some code) => (os, .failed code)
  | (os, none) =>
      if r ∈ os.routes then ({ os with routes := os.routes.erase r }, .success)
      else (os, .notFound)

def getIpInterfaceEntry (os : Os) (ifindex : ℕ) : Os × Except Win32 IfRow :=
  match os.called with
  | (os, some code) => (os, .error (.failed code))
  | (os, none) =>
      match os.ifaces ifindex with
      | some row => (os, .ok row)
      | none => (os, .error .notFound)

def setIpInterfaceEntry (os : Os) (ifindex : ℕ) (row : IfRow) : Os × Win32 :=
  match os.called with
  | (os, some code) => (os, .failed code)
  | (os, none) =>
      match os.ifaces ifindex with
      | some _ =>
          ({ os with ifaces := fun i => if i = ifindex then some row else os.ifaces i },
            .success)
      | none => (os, .notFound)

end Os

/-! ## The fallible helpers -/

def routeAdd (os : Os) (r : Entry) : Called Os :=
  match os.createIpForwardEntry2 r with
  | (os, .success) => (os, .ok ())
  | (os, .objectAlreadyExists) => (os, .ok ())
  | (os, err) => (os, .error ("CreateIpForwardEntry2(" ++ r.1.toText ++ ") failed: " ++
      toString err.code))

def routeDel (os : Os) (r : Entry) : Called Os :=
  match os.deleteIpForwardEntry2 r with
  | (os, .success) => (os, .ok ())
  | (os, .notFound) => (os, .ok ())
  | (os, err) => (os, .error ("DeleteIpForwardEntry2(" ++ r.1.toText ++ ") failed: " ++
      toString err.code))

def setMetric (os : Os) (ifindex metric : ℕ) : Called Os :=
  match os.getIpInterfaceEntry ifindex with
  | (os, .error err) => (os, .error ("GetIpInterfaceEntry(" ++ toString ifindex ++
      ") failed: " ++ toString err.code))
  | (os, .ok _) =>
      match os.setIpInterfaceEntry ifindex ⟨metric, false⟩ with
      | (os, .success) => (os, .ok ())
      | (os, err) => (os, .error ("SetIpInterfaceEntry(" ++ toString ifindex ++
          ") failed: " ++ toString err.code))

/-- Put the automatic flag back, keeping the metric the row has now. -/
def restoreAutomatic (os : Os) (ifindex : ℕ) : Called Os :=
  match os.getIpInterfaceEntry ifindex with
  | (os, .error err) => (os, .error ("Read automatic metric if" ++ toString ifindex ++
      " failed: " ++ toString err.code))
  | (os, .ok row) =>
      match os.setIpInterfaceEntry ifindex { row with useAutomaticMetric := true } with
      | (os, .success) => (os, .ok ())
      | (os, err) => (os, .error ("Restore automatic metric if" ++ toString ifindex ++
          " failed: " ++ toString err.code))

/-! ## The guard -/

/-- `savedMetric` is `(ifindex, metric, UseAutomaticMetric)` before the service
first touched the interface. -/
structure RouteGuard where
  added : List Entry := []
  savedMetric : Option (ℕ × ℕ × Bool) := none
  appliedMetricIfindex : Option ℕ := none
  os : Os

namespace RouteGuard

def new (os : Os) : RouteGuard := { os }

def addRoute (g : RouteGuard) (r : Entry) : Called RouteGuard :=
  if r ∈ g.added then (g, .ok ())
  else match routeAdd g.os r with
    | (os, .ok ()) => ({ g with os, added := g.added ++ [r] }, .ok ())
    | (os, .error msg) => ({ g with os }, .error msg)

def deleteRoute (g : RouteGuard) (r : Entry) : Called RouteGuard :=
  match routeDel g.os r with
  | (os, .ok ()) => ({ g with os, added := g.added.filter (· ≠ r) }, .ok ())
  | (os, .error msg) => ({ g with os }, .error msg)

/-- Press the metric, saving the original once per interface. -/
def setStandbyMetric (g : RouteGuard) (ifindex target : ℕ) : RouteGuard :=
  if target = 0 || g.appliedMetricIfindex = some ifindex then g
  else
    let read : Option RouteGuard × Os :=
      if g.savedMetric.all (fun saved => saved.1 ≠ ifindex) then
        match g.os.getIpInterfaceEntry ifindex with
        | (os, .ok row) =>
            (some { g with os, savedMetric := some (ifindex, row.metric,
              row.useAutomaticMetric) }, os)
        | (os, .error _) => (none, os)
      else (some g, g.os)
    match read with
    | (none, os) => { g with os }
    | (some g, _) =>
        match setMetric g.os ifindex target with
        | (os, .ok ()) => { g with os, appliedMetricIfindex := some ifindex }
        | (os, .error _) => { g with os }

/-- Any part failing keeps the saved value for the next attempt. -/
def restoreMetric (g : RouteGuard) : Called RouteGuard :=
  let g := { g with appliedMetricIfindex := none }
  match g.savedMetric with
  | none => (g, .ok ())
  | some (ifindex, metric, auto) =>
      match setMetric g.os ifindex metric with
      | (os, .error msg) => ({ g with os }, .error msg)
      | (os, .ok ()) =>
          if auto then
            match restoreAutomatic os ifindex with
            | (os, .error msg) => ({ g with os }, .error msg)
            | (os, .ok ()) => ({ g with os, savedMetric := none }, .ok ())
          else ({ g with os, savedMetric := none }, .ok ())

/-- Full rollback, also what dropping the guard does. Failures are only logged. -/
def teardown (g : RouteGuard) : RouteGuard :=
  (g.added.foldl (fun g r => (g.deleteRoute r).1) g).restoreMetric.1

instance : EgressOps RouteGuard where
  addRoute := addRoute
  deleteRoute := deleteRoute
  suppressMetric := setStandbyMetric
  restoreMetric g _ := g.restoreMetric

end RouteGuard

/-- Start-up cleanup: delete every row to an owned destination, whatever left
it there. Failures are only logged. -/
def cleanupStale (os : Os) (dests : List Ipv4Addr) : Os :=
  match os.called with
  | (os, some _) => os
  | (os, none) =>
      (os.routes.filter (fun r => r.1 ∈ dests)).foldl
        (fun os r => (routeDel os r).1) os

/-! ## What the metric calls change

They leave the forwarding table alone. A call that fails leaves the interfaces
alone too; one that succeeds writes one row. -/

namespace Os

/-- The interfaces with one row written. -/
def written (os : Os) (ifindex : ℕ) (row : IfRow) : ℕ → Option IfRow :=
  fun i => if i = ifindex then some row else os.ifaces i

theorem getIpInterfaceEntry_spec (os : Os) (ifindex : ℕ) :
    (os.getIpInterfaceEntry ifindex).1.routes = os.routes ∧
    (os.getIpInterfaceEntry ifindex).1.ifaces = os.ifaces ∧
    ∀ row, (os.getIpInterfaceEntry ifindex).2 = .ok row → os.ifaces ifindex = some row := by
  unfold getIpInterfaceEntry called
  cases os.fault os.calls with
  | some code => exact ⟨rfl, rfl, by simp⟩
  | none =>
      simp only
      cases hrow : os.ifaces ifindex with
      | none => exact ⟨rfl, rfl, by simp⟩
      | some row => exact ⟨rfl, rfl, by simp⟩

theorem setIpInterfaceEntry_spec (os : Os) (ifindex : ℕ) (row : IfRow) :
    (os.setIpInterfaceEntry ifindex row).1.routes = os.routes ∧
    ((os.setIpInterfaceEntry ifindex row).2 = .success →
      (os.setIpInterfaceEntry ifindex row).1.ifaces = os.written ifindex row ∧
        (os.ifaces ifindex).isSome) ∧
    ((os.setIpInterfaceEntry ifindex row).2 ≠ .success →
      (os.setIpInterfaceEntry ifindex row).1.ifaces = os.ifaces) := by
  unfold setIpInterfaceEntry called
  cases os.fault os.calls with
  | some code => exact ⟨rfl, by simp, fun _ => rfl⟩
  | none =>
      simp only
      cases hrow : os.ifaces ifindex with
      | none => exact ⟨rfl, by simp, fun _ => rfl⟩
      | some old => exact ⟨rfl, fun _ => ⟨rfl, rfl⟩, by simp⟩

/-- Writing a row back after it was read, compared with the state before both
calls. -/
theorem read_then_write {os os' : Os} {ifindex : ℕ} {row : IfRow}
    (hget : os.getIpInterfaceEntry ifindex = (os', .ok row)) (new : IfRow) :
    (os'.setIpInterfaceEntry ifindex new).1.routes = os.routes ∧
    ((os'.setIpInterfaceEntry ifindex new).2 = .success →
      os.ifaces ifindex = some row ∧
        (os'.setIpInterfaceEntry ifindex new).1.ifaces = os.written ifindex new) ∧
    ((os'.setIpInterfaceEntry ifindex new).2 ≠ .success →
      (os'.setIpInterfaceEntry ifindex new).1.ifaces = os.ifaces) := by
  obtain ⟨hroutes, hifaces, hread⟩ := os.getIpInterfaceEntry_spec ifindex
  rw [hget] at hroutes hifaces hread
  obtain ⟨hroutes', hok, herr⟩ := os'.setIpInterfaceEntry_spec ifindex new
  refine ⟨hroutes'.trans hroutes, ?_, fun hfail => (herr hfail).trans hifaces⟩
  intro hsuccess
  refine ⟨hread row rfl, (hok hsuccess).1.trans ?_⟩
  unfold written
  rw [hifaces]

end Os

/-- A metric call and its outcome: a row written, or nothing. -/
structure WritesRow (os : Os) (ifindex : ℕ) (row : IfRow → IfRow) (done : Called Os) :
    Prop where
  routes : done.1.routes = os.routes
  ok : done.2 = .ok () → ∃ old, os.ifaces ifindex = some old ∧
    done.1.ifaces = os.written ifindex (row old)
  error : ∀ msg, done.2 = .error msg → done.1.ifaces = os.ifaces

theorem setMetric_spec (os : Os) (ifindex metric : ℕ) :
    WritesRow os ifindex (fun _ => ⟨metric, false⟩) (setMetric os ifindex metric) := by
  obtain ⟨hroutes, hifaces, -⟩ := os.getIpInterfaceEntry_spec ifindex
  unfold setMetric
  split
  · rename_i hget
    rw [hget] at hroutes hifaces
    exact ⟨hroutes, by simp, fun _ _ => hifaces⟩
  · rename_i os' row hget
    obtain ⟨hroutes', hok, herr⟩ := Os.read_then_write hget ⟨metric, false⟩
    split
    · rename_i hset
      rw [hset] at hroutes' hok
      exact ⟨hroutes', fun _ => ⟨row, hok rfl⟩, by simp⟩
    · rename_i hfail hset
      rw [hset] at hroutes' herr
      exact ⟨hroutes', by simp, fun _ _ => herr hfail⟩

theorem restoreAutomatic_spec (os : Os) (ifindex : ℕ) :
    WritesRow os ifindex (fun row => { row with useAutomaticMetric := true })
      (restoreAutomatic os ifindex) := by
  obtain ⟨hroutes, hifaces, -⟩ := os.getIpInterfaceEntry_spec ifindex
  unfold restoreAutomatic
  split
  · rename_i hget
    rw [hget] at hroutes hifaces
    exact ⟨hroutes, by simp, fun _ _ => hifaces⟩
  · rename_i os' row hget
    obtain ⟨hroutes', hok, herr⟩ :=
      Os.read_then_write hget { row with useAutomaticMetric := true }
    split
    · rename_i hset
      rw [hset] at hroutes' hok
      exact ⟨hroutes', fun _ => ⟨row, hok rfl⟩, by simp⟩
    · rename_i hfail hset
      rw [hset] at hroutes' herr
      exact ⟨hroutes', by simp, fun _ _ => herr hfail⟩

namespace RouteGuard

/-- The guard with the original of `ifindex` in its slot: it was there, or is
read into it. -/
inductive Opened (g : RouteGuard) (ifindex : ℕ) : RouteGuard → Prop
  | held {saved : ℕ × ℕ × Bool} (hsaved : g.savedMetric = some saved)
      (hindex : saved.1 = ifindex) : Opened g ifindex g
  | taken {os : Os} {row : IfRow}
      (hfree : ∀ saved, g.savedMetric = some saved → saved.1 ≠ ifindex)
      (hget : g.os.getIpInterfaceEntry ifindex = (os, .ok row)) :
      Opened g ifindex
        { g with os, savedMetric := some (ifindex, row.metric, row.useAutomaticMetric) }

/-- What a suppression can do. -/
inductive Pressed (g : RouteGuard) (ifindex target : ℕ) : RouteGuard → Prop
  | idle : Pressed g ifindex target g
  | unread {os : Os} {err : Win32}
      (hget : g.os.getIpInterfaceEntry ifindex = (os, .error err)) :
      Pressed g ifindex target { g with os }
  | failed {g' : RouteGuard} {os : Os} {msg : String} (htarget : target ≠ 0)
      (hopen : Opened g ifindex g') (hset : setMetric g'.os ifindex target = (os, .error msg)) :
      Pressed g ifindex target { g' with os }
  | done {g' : RouteGuard} {os : Os} (htarget : target ≠ 0)
      (hopen : Opened g ifindex g') (hset : setMetric g'.os ifindex target = (os, .ok ())) :
      Pressed g ifindex target { g' with os, appliedMetricIfindex := some ifindex }

theorem setStandbyMetric_pressed (g : RouteGuard) (ifindex target : ℕ) :
    Pressed g ifindex target (g.setStandbyMetric ifindex target) := by
  unfold setStandbyMetric
  split
  · exact .idle
  rename_i hskip
  have htarget : target ≠ 0 := by
    intro h
    simp [h] at hskip
  dsimp only
  split
  · rename_i os hread
    split at hread
    · split at hread
      · cases hread
      · rename_i hget
        cases hread
        exact .unread hget
    · cases hread
  · rename_i g' os' hread
    have hopen : Opened g ifindex g' := by
      split at hread
      · rename_i hfree
        split at hread
        · rename_i hget
          cases hread
          refine .taken ?_ hget
          intro saved hsaved
          simpa [hsaved] using hfree
        · cases hread
      · rename_i hheld
        cases hread
        cases hsaved : g.savedMetric with
        | none => simp [hsaved] at hheld
        | some saved => exact .held hsaved (by simpa [hsaved] using hheld)
    split
    · rename_i hset
      exact .done htarget hopen hset
    · rename_i hset
      exact .failed htarget hopen hset

/-- What restoring the metric can do. A failure half-way may leave the metric
back and the flag still off, on the saved interface only. -/
inductive Restored (g : RouteGuard) : Called RouteGuard → Prop
  | nothing (hsaved : g.savedMetric = none) :
      Restored g ({ g with appliedMetricIfindex := none }, .ok ())
  | failed {saved : ℕ × ℕ × Bool} {os : Os} {msg : String}
      (hsaved : g.savedMetric = some saved) (hroutes : os.routes = g.os.routes)
      (hothers : ∀ i, i ≠ saved.1 → os.ifaces i = g.os.ifaces i)
      (hexists : os.ifaces saved.1 = none ↔ g.os.ifaces saved.1 = none) :
      Restored g ({ g with os, appliedMetricIfindex := none }, .error msg)
  | done {saved : ℕ × ℕ × Bool} {os : Os}
      (hsaved : g.savedMetric = some saved) (hroutes : os.routes = g.os.routes)
      (hifaces : os.ifaces = g.os.written saved.1 ⟨saved.2.1, saved.2.2⟩)
      (hexists : g.os.ifaces saved.1 ≠ none) :
      Restored g ({ g with os, savedMetric := none, appliedMetricIfindex := none }, .ok ())

theorem restoreMetric_restored (g : RouteGuard) : Restored g g.restoreMetric := by
  unfold restoreMetric
  dsimp only
  split
  · rename_i hsaved
    exact .nothing hsaved
  · rename_i ifindex metric auto hsaved
    have hset := setMetric_spec g.os ifindex metric
    split
    · rename_i os msg hs
      rw [hs] at hset
      have hsame := hset.error msg rfl
      exact .failed hsaved hset.routes (fun i _ => by rw [hsame]) (by rw [hsame])
    · rename_i os hs
      rw [hs] at hset
      obtain ⟨old, hold, hwritten⟩ := hset.ok rfl
      change os.ifaces = _ at hwritten
      have hexists : g.os.ifaces ifindex ≠ none := by simp [hold]
      split
      · rename_i hauto
        have hflag := restoreAutomatic_spec os ifindex
        split
        · rename_i os' msg hr
          rw [hr] at hflag
          have hsame := hflag.error msg rfl
          refine .failed hsaved (hflag.routes.trans hset.routes) ?_ ?_
          · intro i hi
            rw [hsame, hwritten, Os.written, if_neg hi]
          · rw [hsame, hwritten]
            simp [Os.written, hexists]
        · rename_i os' hr
          rw [hr] at hflag
          obtain ⟨old', hold', hwritten'⟩ := hflag.ok rfl
          refine .done hsaved (hflag.routes.trans hset.routes) ?_ hexists
          rw [hwritten, Os.written, if_pos rfl] at hold'
          rw [← Option.some.inj hold'] at hwritten'
          rw [hwritten']
          funext i
          by_cases hi : i = ifindex
          · simp [Os.written, hi, hauto]
          · simp [Os.written, hi, hwritten]
      · rename_i hauto
        refine .done hsaved hset.routes ?_ hexists
        rw [hwritten]
        simp [hauto]

end RouteGuard

end GdutNet
