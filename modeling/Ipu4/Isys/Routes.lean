import Mathlib.Data.List.Pairwise

/-!
# Two lookups in a routing table

`ipu6_isys_setup_video` takes the last active route to a source pad, and gets the
virtual channel for the stream at its sink. Formats, pins and streaming go by
`ipu6_isys_get_src_stream_by_src_pad`, which takes the first route to the pad, active
or not.
-/

namespace Ipu4.Isys.Routes

/-- `struct v4l2_subdev_route`. -/
structure Route where
  sinkPad : Nat
  sinkStream : Nat
  sourcePad : Nat
  sourceStream : Nat
  flags : Nat
  deriving DecidableEq, Repr

/-- `V4L2_SUBDEV_ROUTE_FL_ACTIVE`. -/
def Route.active (r : Route) : Bool := r.flags.testBit 0

def NR_OF_CSI2_SINK_PADS : Nat := 1

def Route.sameSink (a b : Route) : Prop := a.sinkPad = b.sinkPad ∧ a.sinkStream = b.sinkStream

def Route.sameSource (a b : Route) : Prop :=
  a.sourcePad = b.sourcePad ∧ a.sourceStream = b.sourceStream

/-- What `v4l2_subdev_routing_validate` sees to for `V4L2_SUBDEV_ROUTING_ONLY_1_TO_1`: pads
are what they are used as, and no two routes share an end. -/
structure OneToOne (routes : List Route) : Prop where
  sinkPads : ∀ r ∈ routes, r.sinkPad < NR_OF_CSI2_SINK_PADS
  sinks : routes.Pairwise fun a b => ¬ a.sameSink b
  sources : routes.Pairwise fun a b => ¬ a.sameSource b

/-- The core of V4L2, as far as the driver uses it for routing: the check of a table for
1-to-1 routes, and its storage in the state. -/
structure V4l2 where
  routingValidate : List Route → Int
  setRoutingWithFmt : List Route → List Route → List Route × Int

/-- As it is documented. -/
structure V4l2.Ok (v4l2 : V4l2) : Prop where
  validate : ∀ routes, v4l2.routingValidate routes = 0 → OneToOne routes
  stores : ∀ old routes, (v4l2.setRoutingWithFmt old routes).2 = 0 →
    (v4l2.setRoutingWithFmt old routes).1 = routes

/-- `subdev_set_routing`, from the table of the state to the new one. -/
def subdevSetRouting (v4l2 : V4l2) (old routes : List Route) : List Route × Int :=
  let ret := v4l2.routingValidate routes
  if ret ≠ 0 then (old, ret) else v4l2.setRoutingWithFmt old routes

-- ---------------------------------------------------------------------------
-- The lookups
-- ---------------------------------------------------------------------------

/-- `ipu6_isys_get_src_stream_by_src_pad`. -/
def getSrcStreamBySrcPad (routes : List Route) (pad : Nat) : Nat :=
  match routes.find? fun r => r.sourcePad = pad with
  | some r => r.sourceStream
  | none => 0

/-- The loop of `ipu6_isys_setup_video`, with `*nr_queues` and `route`. -/
def findRoot (pad : Nat) (nrQueues : Nat) (route : Option Route) : List Route → Nat × Option Route
  | [] => (nrQueues, route)
  | r :: rs =>
    if r.active then findRoot pad (nrQueues + 1) (if r.sourcePad = pad then some r else route) rs
    else findRoot pad nrQueues route rs

/-- What `ipu6_isys_setup_video` puts in `av->source_stream`; `none` is `-ENODEV`. -/
def setupSourceStream (routes : List Route) (pad : Nat) : Option Nat :=
  (findRoot pad 0 none routes).2.map Route.sinkStream

/-- The source stream that is looked up for a pad is that of the active route whose sink
stream the node has stored. -/
def Agree (routes : List Route) (pad : Nat) : Prop :=
  ∃ stored, setupSourceStream routes pad = some stored ∧
    ∀ r ∈ routes, r.active = true → r.sinkStream = stored → getSrcStreamBySrcPad routes pad = r.sourceStream

/-- The first route to the pad is active, and no other one is. -/
def FirstOnly (routes : List Route) (pad : Nat) : Prop :=
  ∃ pre r post, routes = pre ++ r :: post ∧ (∀ x ∈ pre, x.sourcePad ≠ pad) ∧
    r.sourcePad = pad ∧ r.active = true ∧ ∀ x ∈ post, x.sourcePad = pad → x.active = false

-- ---------------------------------------------------------------------------
-- What they find
-- ---------------------------------------------------------------------------

variable {routes pre post : List Route} {pad : Nat} {r : Route}

def Route.activeTo (pad : Nat) (r : Route) : Bool := r.active && decide (r.sourcePad = pad)

theorem findRoot_route (nrQueues : Nat) (route : Option Route) :
    (findRoot pad nrQueues route routes).2 = (routes.filter (Route.activeTo pad)).getLast?.or route := by
  induction routes generalizing nrQueues route with
  | nil => rfl
  | cons r rs ih =>
    unfold findRoot
    cases hactive : r.active with
    | false =>
      have hto : Route.activeTo pad r = false := by rw [Route.activeTo, hactive]; rfl
      rw [List.filter_cons_of_neg (by simp [hto])]
      exact ih ..
    | true =>
      rw [if_pos rfl, ih]
      by_cases hpad : r.sourcePad = pad
      · have hto : Route.activeTo pad r = true := by simp [Route.activeTo, hactive, hpad]
        rw [List.filter_cons_of_pos hto, if_pos hpad, List.getLast?_cons]
        cases (rs.filter (Route.activeTo pad)).getLast? <;> rfl
      · have hto : Route.activeTo pad r = false := by simp [Route.activeTo, hpad]
        rw [List.filter_cons_of_neg (by simp [hto]), if_neg hpad]

theorem filter_activeTo (hpre : ∀ x ∈ pre, x.sourcePad ≠ pad) (hpad : r.sourcePad = pad) :
    (pre ++ r :: post).filter (Route.activeTo pad) =
      (if r.active then [r] else []) ++ post.filter (Route.activeTo pad) := by
  have hnone : pre.filter (Route.activeTo pad) = [] := by
    rw [List.filter_eq_nil_iff]
    intro x hx
    simp [Route.activeTo, hpre x hx]
  rw [List.filter_append, hnone, List.nil_append, List.filter_cons]
  cases hactive : r.active <;> simp [Route.activeTo, hactive, hpad]

theorem find?_first (hpre : ∀ x ∈ pre, x.sourcePad ≠ pad) (hpad : r.sourcePad = pad) :
    getSrcStreamBySrcPad (pre ++ r :: post) pad = r.sourceStream := by
  have hnone : pre.find? (fun r => decide (r.sourcePad = pad)) = none := by
    rw [List.find?_eq_none]
    intro x hx
    simp [hpre x hx]
  rw [getSrcStreamBySrcPad, List.find?_append, hnone, Option.none_or, List.find?_cons_of_pos (by simp [hpad])]

theorem OneToOne.sink_unique (h : OneToOne routes) (hx : x ∈ routes) (hy : y ∈ routes)
    (hstream : x.sinkStream = y.sinkStream) : x = y := by
  by_contra hne
  have hpads : x.sinkPad = y.sinkPad := by
    have hx0 := h.sinkPads x hx
    have hy0 := h.sinkPads y hy
    unfold NR_OF_CSI2_SINK_PADS at hx0 hy0
    omega
  have hsymm : Std.Symm fun a b : Route => ¬ a.sameSink b :=
    ⟨fun a b hab hba => hab ⟨hba.1.symm, hba.2.symm⟩⟩
  exact h.sinks.forall hx hy hne ⟨hpads, hstream⟩

theorem exists_first (h : ∃ r ∈ routes, r.sourcePad = pad) :
    ∃ pre r post, routes = pre ++ r :: post ∧ (∀ x ∈ pre, x.sourcePad ≠ pad) ∧ r.sourcePad = pad := by
  induction routes with
  | nil =>
    obtain ⟨r, hr, -⟩ := h
    cases hr
  | cons r rs ih =>
    by_cases hpad : r.sourcePad = pad
    · exact ⟨[], r, rs, rfl, by simp, hpad⟩
    · obtain ⟨x, hx, hxpad⟩ := h
      have hrest : ∃ r ∈ rs, r.sourcePad = pad := by
        cases hx with
        | head => exact absurd hxpad hpad
        | tail _ hx => exact ⟨x, hx, hxpad⟩
      obtain ⟨pre, r', post, rfl, hpre, hpad'⟩ := ih hrest
      exact ⟨r :: pre, r', post, rfl, by simpa using ⟨hpad, hpre⟩, hpad'⟩

theorem mem_filter_activeTo : x ∈ routes.filter (Route.activeTo pad) ↔
    x ∈ routes ∧ x.active = true ∧ x.sourcePad = pad := by
  simp [Route.activeTo]

theorem agree_iff (h : OneToOne routes) (hactive : ∃ r ∈ routes, r.active = true ∧ r.sourcePad = pad) :
    Agree routes pad ↔ FirstOnly routes pad := by
  constructor
  · rintro ⟨stored, hsetup, hagree⟩
    obtain ⟨x, hx, -, hxpad⟩ := hactive
    obtain ⟨pre, r, post, rfl, hpre, hpad⟩ := exists_first ⟨x, hx, hxpad⟩
    have hsources := (List.pairwise_append.mp h.sources).2.1
    rw [setupSourceStream, findRoot_route, Option.or_none, filter_activeTo hpre hpad] at hsetup
    obtain ⟨last, hlast, rfl⟩ := Option.map_eq_some_iff.mp hsetup
    rw [find?_first hpre hpad] at hagree
    -- the last active route has the source of the first one, so it does not come after it
    have hnone : post.filter (Route.activeTo pad) = [] := by
      by_contra hne
      rw [List.getLast?_append, List.getLast?_eq_some_getLast hne, Option.some_or] at hlast
      obtain rfl := Option.some.inj hlast
      obtain ⟨hmem, hlastActive, hlastPad⟩ := mem_filter_activeTo.mp (List.getLast_mem hne)
      have hstream := hagree _ (List.mem_append_right _ (List.mem_cons_of_mem _ hmem)) hlastActive rfl
      exact (List.pairwise_cons.mp hsources).1 _ hmem ⟨hpad.trans hlastPad.symm, hstream⟩
    refine ⟨pre, r, post, rfl, hpre, hpad, ?_, fun y hy hypad => ?_⟩
    · rw [hnone, List.append_nil] at hlast
      cases hr : r.active with
      | true => rfl
      | false =>
        rw [hr] at hlast
        cases hlast
    · cases hyactive : y.active with
      | false => rfl
      | true =>
        have hmem := mem_filter_activeTo.mpr ⟨hy, hyactive, hypad⟩
        rw [hnone] at hmem
        cases hmem
  · rintro ⟨pre, r, post, rfl, hpre, hpad, hr, hpost⟩
    have hnone : post.filter (Route.activeTo pad) = [] := by
      rw [List.filter_eq_nil_iff]
      intro y hy
      simp only [Route.activeTo, Bool.and_eq_true, decide_eq_true_eq, not_and]
      intro hyactive hypad
      exact absurd hyactive (by simp [hpost y hy hypad])
    refine ⟨r.sinkStream, ?_, ?_⟩
    · rw [setupSourceStream, findRoot_route, Option.or_none, filter_activeTo hpre hpad, hnone, hr]
      rfl
    · intro y hy hyactive hystream
      obtain rfl := h.sink_unique hy (List.mem_append_right _ List.mem_cons_self) hystream
      exact find?_first hpre hpad

-- ---------------------------------------------------------------------------
-- Accepted tables
-- ---------------------------------------------------------------------------

theorem subdevSetRouting_ok {v4l2 : V4l2} (hok : v4l2.Ok) (hret : (subdevSetRouting v4l2 old routes).2 = 0) :
    (subdevSetRouting v4l2 old routes).1 = routes ∧ OneToOne routes := by
  unfold subdevSetRouting at hret ⊢
  by_cases hvalidate : v4l2.routingValidate routes ≠ 0
  · rw [if_pos hvalidate] at hret
    exact absurd hret hvalidate
  · rw [if_neg hvalidate] at hret ⊢
    exact ⟨hok.stores old routes hret, hok.validate routes (not_not.mp hvalidate)⟩

/-- For an accepted table the lookups of a pad with an active route agree, if and only
if the first route to the pad is the only active one. -/
theorem lookups_agree_iff (v4l2 : V4l2) (hok : v4l2.Ok) (old routes : List Route)
    (hret : (subdevSetRouting v4l2 old routes).2 = 0) (pad : Nat)
    (hactive : ∃ r ∈ routes, r.active = true ∧ r.sourcePad = pad) :
    Agree (subdevSetRouting v4l2 old routes).1 pad ↔ FirstOnly routes pad := by
  obtain ⟨hroutes, honeToOne⟩ := subdevSetRouting_ok hok hret
  rw [hroutes]
  exact agree_iff honeToOne hactive

instance (a b : Route) : Decidable (a.sameSink b) := inferInstanceAs (Decidable (_ ∧ _))
instance (a b : Route) : Decidable (a.sameSource b) := inferInstanceAs (Decidable (_ ∧ _))

/-- A core that does just that. -/
def sampleV4l2 : V4l2 where
  routingValidate routes :=
    if (∀ r ∈ routes, r.sinkPad < NR_OF_CSI2_SINK_PADS) ∧
      (routes.Pairwise fun a b => ¬ a.sameSink b) ∧ (routes.Pairwise fun a b => ¬ a.sameSource b)
    then 0 else -22
  setRoutingWithFmt := fun _ routes => (routes, 0)

theorem sampleV4l2_ok : sampleV4l2.Ok where
  validate := by
    intro routes h
    unfold sampleV4l2 at h
    dsimp only at h
    split at h
    · rename_i hroutes
      exact ⟨hroutes.1, hroutes.2.1, hroutes.2.2⟩
    · cases h
  stores := fun _ _ _ => rfl

def twoRoutes : List Route := [⟨0, 0, 1, 0, 1⟩, ⟨0, 1, 2, 0, 1⟩]

theorem lookups_agree_two :
    Agree (subdevSetRouting sampleV4l2 [] twoRoutes).1 2 :=
  (lookups_agree_iff sampleV4l2 sampleV4l2_ok [] twoRoutes (by decide) 2 (by decide)).mpr
    ⟨[⟨0, 0, 1, 0, 1⟩], _, [], rfl, by decide, rfl, rfl, nofun⟩

/-- An inactive route to the pad, and behind it the active one. -/
theorem inactive_route_found : ¬ ∀ (v4l2 : V4l2), v4l2.Ok → ∀ old routes pad,
    (subdevSetRouting v4l2 old routes).2 = 0 → (∃ r ∈ routes, r.active = true ∧ r.sourcePad = pad) →
    Agree (subdevSetRouting v4l2 old routes).1 pad := by
  intro h
  obtain ⟨stored, hstored, hagree⟩ := h sampleV4l2 sampleV4l2_ok [] [⟨0, 0, 1, 0, 0⟩, ⟨0, 1, 1, 1, 1⟩] 1
    (by decide) (by decide)
  obtain rfl := Option.some.inj hstored
  exact absurd (hagree ⟨0, 1, 1, 1, 1⟩ (by decide) rfl rfl) (by decide)

end Ipu4.Isys.Routes
