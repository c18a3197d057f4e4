import Vmlab.Library.SortedMap
import Vmlab.Net.Frame

/-!
# The lab's router

Which segments there are, which pairs of them are connected, and the routes their DHCP servers offer
(`src/net/router.rs`). Segment names are keys of any linear order. A leg holds a handle to its DHCP server, and the
routes stand under the handle.
-/

namespace Vmlab.Net

open Library

abbrev Route := Ipv4Net × Ipv4Addr

def Ipv4Net.Before (left right : Ipv4Net) : Prop :=
  left.addr < right.addr ∨ left.addr = right.addr ∧ left.prefixLen ≤ right.prefixLen

instance : DecidableRel Ipv4Net.Before := fun _ _ => inferInstanceAs (Decidable (_ ∨ _))

abbrev DhcpHandle := Nat

structure Leg (Name : Type) where
  name : Name
  subnet : Ipv4Net
  gwIp : Ipv4Addr
  dhcp : Option DhcpHandle
  declaredRoutes : List Route

inductive RouteError (Name : Type) where
  | toItself (name : Name)
  | noSegment (name : Name)

structure Router (Name : Type) [LinearOrder Name] where
  legs : SortedMap Name (Leg Name)
  pairs : SortedMap (Name ×ₗ Name) Unit
  offered : DhcpHandle → List Route

namespace Router

variable {Name : Type} [LinearOrder Name]

def new (offered : DhcpHandle → List Route) : Router Name := { legs := .empty, pairs := .empty, offered }

def otherEnd (name : Name) (pair : Name ×ₗ Name) : Option Name :=
  if (ofLex pair).1 = name then some (ofLex pair).2
  else if (ofLex pair).2 = name then some (ofLex pair).1
  else none

def peersOf (router : Router Name) (name : Name) : List (Leg Name) :=
  router.pairs.keys.filterMap fun pair => (otherEnd name pair).bind router.legs.get?

def addRoute (gwIp : Ipv4Addr) (routes : List Route) (subnet : Ipv4Net) : List Route :=
  if routes.any fun route => route.1 = subnet then routes else routes ++ [(subnet, gwIp)]

section

variable (router : Router Name)

def dhcpRoutesOf (segment : Name) : List Route :=
  match router.legs.get? segment with
  | none => []
  | some leg =>
    (((router.peersOf segment).map Leg.subnet).insertionSort Ipv4Net.Before).foldl (addRoute leg.gwIp)
      leg.declaredRoutes

def refreshDhcp (segment : Name) : Router Name :=
  match (router.legs.get? segment).bind Leg.dhcp with
  | some dhcp => { router with offered := Function.update router.offered dhcp (router.dhcpRoutesOf segment) }
  | none => router

def register (leg : Leg Name) : Router Name :=
  refreshDhcp { router with legs := router.legs.insert leg.name leg } leg.name

end

def pairKey (a b : Name) : Name ×ₗ Name := if a < b then toLex (a, b) else toLex (b, a)

def set (router : Router Name) (a b : Name) (connected : Bool) : Except (RouteError Name) (Router Name) :=
  if a = b then .error (.toItself a)
  else if (router.legs.get? a).isNone then .error (.noSegment a)
  else if (router.legs.get? b).isNone then .error (.noSegment b)
  else
    let changed := (router.pairs.get? (pairKey a b)).isSome ≠ connected
    let pairs := if connected then router.pairs.insert (pairKey a b) () else router.pairs.erase (pairKey a b)
    if changed then .ok (refreshDhcp (refreshDhcp { router with pairs } a) b) else .ok { router with pairs }

inductive Event (Name : Type) where
  | register (leg : Leg Name)
  | connect (a b : Name)
  | disconnect (a b : Name)

/-- A call that fails changes nothing. -/
def step (router : Router Name) : Event Name → Router Name
  | .register leg => router.register leg
  | .connect a b => (router.set a b true).toOption.getD router
  | .disconnect a b => (router.set a b false).toOption.getD router

def run (router : Router Name) (events : List (Event Name)) : Router Name := events.foldl step router

/-! ### DHCP servers offer the current routes -/

open SortedMap (get?_insert mem_keys)
open List

variable {router : Router Name}

/-- Every server offers what its segment's registration and connections say. -/
def Current (router : Router Name) : Prop :=
  ∀ name leg dhcp, router.legs.get? name = some leg → leg.dhcp = some dhcp →
    router.offered dhcp = router.dhcpRoutesOf name

/-- What an event has to keep: a segment brings a DHCP server that no other one
has, and while a connected peer has a DHCP server it keeps its subnet. -/
def Orderly (router : Router Name) : Event Name → Prop
  | .register leg =>
    (∀ name other dhcp, router.legs.get? name = some other → name ≠ leg.name → leg.dhcp = some dhcp →
      other.dhcp ≠ some dhcp) ∧
    ∀ old peer, router.legs.get? leg.name = some old → peer ∈ router.peersOf leg.name → peer.dhcp.isSome = true →
      old.subnet = leg.subnet
  | .connect _ _ => True
  | .disconnect _ _ => True

def OrderlyRun : Router Name → List (Event Name) → Prop
  | _, [] => True
  | router, event :: events => router.Orderly event ∧ OrderlyRun (router.step event) events

structure Kept (router : Router Name) : Prop where
  ends : ∀ pair ∈ router.pairs.keys, (ofLex pair).1 ≠ (ofLex pair).2 ∧
    (router.legs.get? (ofLex pair).1).isSome = true ∧ (router.legs.get? (ofLex pair).2).isSome = true
  apart : ∀ left right leg other dhcp, router.legs.get? left = some leg → router.legs.get? right = some other →
    leg.dhcp = some dhcp → other.dhcp = some dhcp → left = right
  current : router.Current

section

variable (router : Router Name)

def CurrentBut (stale : List Name) : Prop :=
  ∀ name leg dhcp, router.legs.get? name = some leg → leg.dhcp = some dhcp → name ∉ stale →
    router.offered dhcp = router.dhcpRoutesOf name

theorem legs_refreshDhcp (segment : Name) : (router.refreshDhcp segment).legs = router.legs := by
  unfold refreshDhcp
  split <;> rfl

theorem pairs_refreshDhcp (segment : Name) : (router.refreshDhcp segment).pairs = router.pairs := by
  unfold refreshDhcp
  split <;> rfl

theorem dhcpRoutesOf_refreshDhcp (segment name : Name) :
    (router.refreshDhcp segment).dhcpRoutesOf name = router.dhcpRoutesOf name := by
  unfold dhcpRoutesOf peersOf
  rw [legs_refreshDhcp, pairs_refreshDhcp]

end

theorem CurrentBut.refresh {segment : Name} {stale : List Name}
    (apart : ∀ left right leg other dhcp, router.legs.get? left = some leg → router.legs.get? right = some other →
      leg.dhcp = some dhcp → other.dhcp = some dhcp → left = right)
    (current : router.CurrentBut (segment :: stale)) : (router.refreshDhcp segment).CurrentBut stale := by
  intro name leg dhcp found served fresh
  rw [legs_refreshDhcp] at found
  rw [dhcpRoutesOf_refreshDhcp]
  by_cases same : name = segment
  · subst same
    have target : (router.legs.get? name).bind Leg.dhcp = some dhcp := by rw [found]; exact served
    rw [refreshDhcp, target]
    exact Function.update_self ..
  have before := current name leg dhcp found served (by simp [same, fresh])
  cases target : (router.legs.get? segment).bind Leg.dhcp with
  | none => rwa [refreshDhcp, target]
  | some other =>
    obtain ⟨leg', found', served'⟩ := Option.bind_eq_some_iff.mp target
    have differ : dhcp ≠ other := by
      rintro rfl
      exact same (apart name segment leg leg' dhcp found found' served served')
    rw [refreshDhcp, target]
    exact (Function.update_of_ne differ _ _).trans before

section

variable {legs : SortedMap Name (Leg Name)}

theorem dhcpRoutesOf_congr {other : Router Name} {name : Name} (own : other.legs.get? name = router.legs.get? name)
    (subnets : (other.peersOf name).map Leg.subnet = (router.peersOf name).map Leg.subnet) :
    other.dhcpRoutesOf name = router.dhcpRoutesOf name := by
  rw [dhcpRoutesOf, dhcpRoutesOf, own, subnets]

theorem otherEnd_symm {name peer : Name} {pair : Name ×ₗ Name} (differ : (ofLex pair).1 ≠ (ofLex pair).2)
    (found : otherEnd name pair = some peer) : otherEnd peer pair = some name := by
  unfold otherEnd at found ⊢
  split at found
  · next first =>
    cases found
    rw [if_neg differ, if_pos rfl, first]
  split at found
  · next second =>
    cases found
    rw [if_pos rfl, second]
  · cases found

theorem peersOf_insert (kept : router.Kept) {leg : Leg Name} (orderly : router.Orderly (.register leg)) {name : Name}
    {own : Leg Name} (found : router.legs.get? name = some own) (served : own.dhcp.isSome = true) :
    (peersOf { router with legs := router.legs.insert leg.name leg } name).map Leg.subnet =
      (router.peersOf name).map Leg.subnet := by
  rw [peersOf, peersOf, map_filterMap, map_filterMap]
  refine filterMap_congr fun pair member => ?_
  cases peer : otherEnd name pair with
  | none => rfl
  | some peer' =>
    show ((router.legs.insert leg.name leg).get? peer').map Leg.subnet = (router.legs.get? peer').map Leg.subnet
    rw [get?_insert]
    split
    · next same =>
      subst same
      obtain ⟨differ, first, second⟩ := kept.ends pair member
      -- The pair has both ends registered, so the old leg is there.
      have registered : (router.legs.get? leg.name).isSome = true := by
        unfold otherEnd at peer
        split at peer
        · rwa [Option.some.inj peer] at second
        split at peer
        · rwa [Option.some.inj peer] at first
        · cases peer
      obtain ⟨old, before⟩ := Option.isSome_iff_exists.mp registered
      have connected : own ∈ router.peersOf leg.name :=
        mem_filterMap.mpr ⟨pair, member, by rw [otherEnd_symm differ peer]; exact found⟩
      rw [before]
      exact congrArg some (orderly.2 old own before connected served).symm
    · rfl

theorem otherEnd_pairKey {a b name : Name} (notA : name ≠ a) (notB : name ≠ b) :
    otherEnd name (pairKey a b) = none := by
  unfold pairKey otherEnd
  split
  · exact (if_neg (Ne.symm notA)).trans (if_neg (Ne.symm notB))
  · exact (if_neg (Ne.symm notB)).trans (if_neg (Ne.symm notA))

end

theorem kept_register (kept : router.Kept) {leg : Leg Name} (orderly : router.Orderly (.register leg)) :
    (router.register leg).Kept := by
  have apart : ∀ left right own other dhcp, (router.legs.insert leg.name leg).get? left = some own →
      (router.legs.insert leg.name leg).get? right = some other → own.dhcp = some dhcp → other.dhcp = some dhcp →
        left = right := by
    intro left right own other dhcp found found' served served'
    rw [get?_insert] at found found'
    split at found <;> split at found'
    · next first second => rw [first, second]
    · next differ =>
      cases found
      exact absurd served' (orderly.1 right other dhcp found' differ served)
    · next differ _ =>
      cases found'
      exact absurd served (orderly.1 left own dhcp found differ served')
    · exact kept.apart left right own other dhcp found found' served served'
  have stale : CurrentBut { router with legs := router.legs.insert leg.name leg } [leg.name] := by
    intro name own dhcp found served fresh
    have differ : name ≠ leg.name := by simpa using fresh
    have found : (router.legs.insert leg.name leg).get? name = some own := found
    have same : (router.legs.insert leg.name leg).get? name = router.legs.get? name := by
      rw [get?_insert, if_neg differ]
    have found : router.legs.get? name = some own := same ▸ found
    have routes := @dhcpRoutesOf_congr Name _ router { router with legs := router.legs.insert leg.name leg } name same
      (peersOf_insert kept orderly found (served ▸ rfl))
    exact (kept.current name own dhcp found served).trans routes.symm
  have current := stale.refresh apart
  refine ⟨fun pair member => ?_, ?_, fun name own dhcp found served => current name own dhcp found served (by simp)⟩
  · rw [register, pairs_refreshDhcp] at member
    rw [register, legs_refreshDhcp]
    obtain ⟨differ, first, second⟩ := kept.ends pair member
    refine ⟨differ, ?_, ?_⟩
    · show ((router.legs.insert leg.name leg).get? _).isSome = true
      rw [get?_insert]
      split
      · rfl
      · exact first
    show ((router.legs.insert leg.name leg).get? _).isSome = true
    rw [get?_insert]
    split
    · rfl
    · exact second
  · rw [register, legs_refreshDhcp]
    exact apart

theorem kept_refreshed (kept : router.Kept) {a b : Name} {pairs : SortedMap (Name ×ₗ Name) Unit}
    (ends : ∀ pair ∈ pairs.keys, (ofLex pair).1 ≠ (ofLex pair).2 ∧
      (router.legs.get? (ofLex pair).1).isSome = true ∧ (router.legs.get? (ofLex pair).2).isSome = true)
    (others : ∀ name, name ≠ a → name ≠ b → peersOf { router with pairs } name = router.peersOf name) :
    (refreshDhcp (refreshDhcp { router with pairs } a) b).Kept := by
  have stale : CurrentBut { router with pairs } [a, b] := by
    intro name own dhcp found served fresh
    obtain ⟨notA, notB⟩ : name ≠ a ∧ name ≠ b := by simpa using fresh
    have routes := @dhcpRoutesOf_congr Name _ router { router with pairs } name rfl (by rw [others name notA notB])
    exact (kept.current name own dhcp found served).trans routes.symm
  have first := CurrentBut.refresh (by exact kept.apart) stale
  have second := first.refresh (by rw [legs_refreshDhcp]; exact kept.apart)
  refine ⟨?_, ?_, fun name own dhcp found served => second name own dhcp found served (by simp)⟩
  · rw [pairs_refreshDhcp, pairs_refreshDhcp, legs_refreshDhcp, legs_refreshDhcp]
    exact ends
  · rw [legs_refreshDhcp, legs_refreshDhcp]
    exact kept.apart

section

variable {a b : Name} (connected : Bool)

theorem ends_pairKey (differ : a ≠ b) (hasA : (router.legs.get? a).isSome = true)
    (hasB : (router.legs.get? b).isSome = true) : (ofLex (pairKey a b)).1 ≠ (ofLex (pairKey a b)).2 ∧
      (router.legs.get? (ofLex (pairKey a b)).1).isSome = true ∧
        (router.legs.get? (ofLex (pairKey a b)).2).isSome = true := by
  unfold pairKey
  split
  · exact ⟨differ, hasA, hasB⟩
  · exact ⟨Ne.symm differ, hasB, hasA⟩

theorem mem_toggled {pair : Name ×ₗ Name} (member : pair ∈ (if connected then
      router.pairs.insert (pairKey a b) () else router.pairs.erase (pairKey a b)).keys) :
    pair ∈ router.pairs.keys ∨ pair = pairKey a b := by
  obtain ⟨value, found⟩ := mem_keys.mp member
  split at found
  · rw [get?_insert] at found
    split at found
    · next same => exact .inr same
    · exact .inl (mem_keys.mpr ⟨value, found⟩)
  rw [SortedMap.get?_erase] at found
  split at found
  · cases found
  · exact .inl (mem_keys.mpr ⟨value, found⟩)

theorem peersOf_toggled {name : Name} (notA : name ≠ a) (notB : name ≠ b) :
    peersOf { router with pairs := if connected then router.pairs.insert (pairKey a b) ()
      else router.pairs.erase (pairKey a b) } name = router.peersOf name := by
  have skips : ((otherEnd name (pairKey a b)).bind router.legs.get?) = none := by
    rw [otherEnd_pairKey notA notB]
    rfl
  unfold peersOf
  dsimp only
  split
  · exact router.pairs.filterMap_keys_insert (pairKey a b) () skips
  · exact router.pairs.filterMap_keys_erase skips

theorem toggled_eq_self (unchanged : (router.pairs.get? (pairKey a b)).isSome = connected) :
    (if connected then router.pairs.insert (pairKey a b) () else router.pairs.erase (pairKey a b)) = router.pairs := by
  cases connected with
  | true => exact SortedMap.insert_eq_self (Option.isSome_iff_exists.mp unchanged).choose_spec
  | false => exact SortedMap.erase_eq_self (by simpa using unchanged)

end

theorem kept_set (kept : router.Kept) (a b : Name) (connected : Bool) :
    ((router.set a b connected).toOption.getD router).Kept := by
  unfold set
  split
  · exact kept
  next differ =>
  split
  · exact kept
  next hasA =>
  split
  · exact kept
  next hasB =>
  have key := ends_pairKey differ (Option.isSome_iff_ne_none.mpr fun absent => hasA (by rw [absent]; rfl))
    (Option.isSome_iff_ne_none.mpr fun absent => hasB (by rw [absent]; rfl))
  dsimp only
  split
  · refine kept_refreshed kept (fun pair member => ?_) fun name notA notB => peersOf_toggled connected notA notB
    rcases mem_toggled connected member with before | rfl
    · exact kept.ends pair before
    · exact key
  · next unchanged =>
    rw [toggled_eq_self connected (by simpa using unchanged)]
    exact kept

theorem kept_step (kept : router.Kept) {event : Event Name} (orderly : router.Orderly event) :
    (router.step event).Kept := by
  cases event with
  | register leg => exact kept_register kept orderly
  | connect a b => exact kept_set kept a b true
  | disconnect a b => exact kept_set kept a b false

theorem kept_run (events : List (Event Name)) (kept : router.Kept) (orderly : router.OrderlyRun events) :
    (router.run events).Kept := by
  induction events generalizing router with
  | nil => exact kept
  | cons event events ih => exact ih (kept_step kept orderly.1) orderly.2

theorem kept_new (offered : DhcpHandle → List Route) : (new offered : Router Name).Kept where
  ends _ member := absurd member not_mem_nil
  apart _ _ _ _ _ found := nomatch found
  current _ _ _ found := nomatch found

/-- In an orderly run every registered segment's DHCP server offers the current
routes after each step. -/
theorem routes_current (offered : DhcpHandle → List Route) (events : List (Event Name))
    (orderly : (new offered : Router Name).OrderlyRun events) : ∀ steps, ((new offered).run (events.take steps)).Current := by
  intro steps
  have run (router : Router Name) (events : List (Event Name)) (steps : Nat) (orderly : router.OrderlyRun events) :
      router.OrderlyRun (events.take steps) := by
    induction events generalizing router steps with
    | nil => simpa using orderly
    | cons event events ih =>
      cases steps with
      | zero => exact trivial
      | succ steps => exact ⟨orderly.1, ih _ _ orderly.2⟩
  exact (kept_run _ (kept_new offered) (run _ events steps orderly)).current

theorem subnetBits_le : 24 ≤ 32 := by decide

def subnetOf (addr : Ipv4Addr) : Ipv4Net := ⟨addr, 24, subnetBits_le⟩

def twoSegments : List (Event Nat) :=
  [.register ⟨1, subnetOf 0x0a000000, 0x0a000001, some 1, []⟩,
    .register ⟨2, subnetOf 0x0a000100, 0x0a000101, some 2, []⟩, .connect 1 2]

theorem twoSegments_orderly : (new fun _ => [] : Router Nat).OrderlyRun twoSegments := by
  have first : (new fun _ => [] : Router Nat).Orderly (.register ⟨1, subnetOf 0x0a000000, 0x0a000001, some 1, []⟩) :=
    ⟨fun _ _ _ found => (nomatch found), fun _ _ found => (nomatch found)⟩
  refine ⟨first, ⟨?_, ?_⟩, trivial, trivial⟩
  · intro name other dhcp found _ served taken
    have found : (SortedMap.empty.insert 1 ⟨1, subnetOf 0x0a000000, 0x0a000001, some 1, []⟩).get? name = some other := found
    rw [get?_insert] at found
    split at found
    · cases found
      cases served
      cases taken
    · cases found
  · exact fun _ _ found => nomatch found

theorem twoSegments_current : (new fun _ => [] : Router Nat).OrderlyRun twoSegments ∧
    ((new fun _ => [] : Router Nat).run (twoSegments.take 3)).Current :=
  ⟨twoSegments_orderly, routes_current (fun _ => []) twoSegments twoSegments_orderly 3⟩

/-- The first segment moves to another subnet, and the second one's server goes
on offering a route to the old one. -/
theorem reregistered_stale : ¬ ((new fun _ => [] : Router Nat).run
    (twoSegments ++ [.register ⟨1, subnetOf 0x0a000200, 0x0a000201, some 1, []⟩])).Current := by
  intro current
  have offered := current 2 ⟨2, subnetOf 0x0a000100, 0x0a000101, some 2, []⟩ 2 (by rfl) rfl
  revert offered
  decide +kernel

end Router

end Vmlab.Net
