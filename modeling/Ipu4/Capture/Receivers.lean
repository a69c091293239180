import Ipu4.Isys.Routes
import Ipu4.Capture.Launch

/-!
# All nodes of a receiver

A stream starts for real once it has as many nodes as its receiver has active
routes. The nodes of one receiver share a stream only if they share a virtual
channel, so this happens exactly if all active routes carry the same one.
-/

namespace Ipu4.Capture.Receivers

open Runs
open Ipu4.Isys.Routes (Route findRoot findRoot_route setupSourceStream mem_filter_activeTo)

def NR_OF_CSI2_VC : Nat := 4

structure FrameDescEntry where
  stream : Nat
  vc : Nat
  deriving DecidableEq, Repr

/-- `csi2` is whether the type is `V4L2_MBUS_FRAME_DESC_TYPE_CSI2`. -/
structure FrameDesc where
  csi2 : Bool
  entry : List FrameDescEntry
  deriving DecidableEq, Repr

/-- A CSI-2 receiver: the entity that feeds its sink pad, with what its `get_frame_desc`
answers, and the routing table. -/
structure Receiver where
  source : Option Nat
  frameDesc : Except Errno FrameDesc
  routes : List Route

/-- `ipu6_isys_csi2_get_remote_desc`, up to the virtual channel. -/
def ipu6IsysCsi2GetRemoteDesc (sourceStream : Nat) (r : Receiver) : Except Errno Nat :=
  match r.frameDesc with
  | .error ret => .error ret
  | .ok desc =>
    if !desc.csi2 then .error ⟨-EINVAL, einval_neg⟩
    else
      match desc.entry.find? fun e => sourceStream = e.stream with
      | none => .error ⟨-EINVAL, einval_neg⟩
      | some e => if NR_OF_CSI2_VC ≤ e.vc then .error ⟨-EINVAL, einval_neg⟩ else .ok e.vc

def Receiver.pads (r : Receiver) : List Nat := (r.routes.filter Route.active).map Route.sourcePad

/-- What a node on source pad `pad` of receiver `asd` meets, if its pipeline starts. -/
def Receiver.setup (r : Receiver) (asd pad : Nat) : SetupEnv where
  remotePad := .ok (asd, pad)
  sourcePad := r.source
  routes := r.pads
  remoteDesc :=
    match setupSourceStream r.routes pad with
    | some sourceStream => ipu6IsysCsi2GetRemoteDesc sourceStream r
    | none => .error ⟨-ENODEV, enodev_neg⟩
  pipelineStart := none

/-- The links of the nodes to source pads of receivers, and the receivers. -/
structure Graph where
  link : Nat → Except Errno (Nat × Nat)
  receiver : Nat → Receiver

theorem findRoot_nrQueues (pad n : Nat) (route : Option Route) (routes : List Route) :
    (findRoot pad n route routes).1 = n + (routes.filter Route.active).length := by
  induction routes generalizing n route with
  | nil => rfl
  | cons r rs ih =>
    unfold findRoot
    cases hactive : r.active with
    | false =>
      rw [List.filter_cons_of_neg (by simp [hactive])]
      exact ih n route
    | true =>
      rw [if_pos rfl, ih, List.filter_cons_of_pos hactive, List.length_cons]
      omega

theorem findRoot_isSome (pad n : Nat) (r : Receiver) :
    (findRoot pad n none r.routes).2.isSome ↔ pad ∈ r.pads := by
  rw [findRoot_route, Option.or_none, List.getLast?_isSome, Receiver.pads, List.mem_map]
  constructor
  · intro hne
    obtain ⟨x, hx⟩ := List.exists_mem_of_ne_nil _ hne
    obtain ⟨hmem, hactive, hpad⟩ := mem_filter_activeTo.mp hx
    exact ⟨x, List.mem_filter.mpr ⟨hmem, hactive⟩, hpad⟩
  · rintro ⟨x, hx, hpad⟩
    obtain ⟨hmem, hactive⟩ := List.mem_filter.mp hx
    exact List.ne_nil_of_mem (mem_filter_activeTo.mpr ⟨hmem, hactive, hpad⟩)

/-- The virtual channel of the stream that reaches source pad `pad`. -/
def Receiver.channel (r : Receiver) (pad : Nat) : Except Errno Nat := (r.setup 0 pad).channel

def Receiver.OneChannel (r : Receiver) : Prop :=
  ∀ a ∈ r.pads, ∀ b ∈ r.pads, r.channel a = r.channel b

def Graph.setup (g : Graph) (i : Nat) (pipelineStart : Option Errno) : SetupEnv :=
  match g.link i with
  | .ok (asd, pad) => { (g.receiver asd).setup asd pad with pipelineStart := pipelineStart }
  | .error ret => ⟨.error ret, none, [], .error ret, pipelineStart⟩

-- ---------------------------------------------------------------------------
-- Runs
-- ---------------------------------------------------------------------------

def Started (s : Isys) (i : Nat) : Prop := (s.av i).stream ≠ none

/-- There is an active route to the node's pad that no started node is for. -/
def Graph.Room (g : Graph) (s : Isys) (i : Nat) : Prop :=
  ∀ asd pad, g.link i = .ok (asd, pad) → pad ∈ (g.receiver asd).pads → ∀ js : List Nat, js.Nodup →
    (∀ j ∈ js, Started s j ∧ g.link j = .ok (asd, pad)) → js.length < (g.receiver asd).pads.count pad

/-- The node and the started nodes of its receiver have a buffer queued. -/
def Graph.Fed (g : Graph) (s : Isys) (i : Nat) : Prop :=
  s.bufs.incoming i ≠ [] ∧ ∀ j asd pad pad', Started s j → g.link i = .ok (asd, pad) →
    g.link j = .ok (asd, pad') → s.bufs.incoming j ≠ []

/-- A start is for the node of an active route, and finds buffers; and the silent reset
of a stream succeeds. -/
def Graph.Orderly (g : Graph) (s : Isys) : Op → Prop
  | .start i env => env.setup = g.setup i env.setup.pipelineStart ∧ g.Room s i ∧ g.Fed s i
  | .restart i env => (restartStream s env i).2 = 0
  | _ => True

structure System where
  isys : Isys
  graph : Graph

inductive Event where
  | op (op : Op)
  | configure (graph : Graph)

/-- Links, routes and descriptors can change, but not for a started node. -/
inductive Step : System → Event → System → Prop
  | op : Allowed s op → Graph.Orderly g s op → Step ⟨s, g⟩ (.op op) ⟨apply s op, g⟩
  | configure : (∀ i, Started s i → Graph.link g' i = g.link i ∧
      ∀ asd pad, g.link i = .ok (asd, pad) → g'.receiver asd = g.receiver asd) →
      Step ⟨s, g⟩ (.configure g') ⟨s, g'⟩

/-- After probing. -/
def Booted (sys : System) : Prop := sys.isys = initial

/-- The stream of slot `k` has all its nodes, and streams in the firmware. -/
structure FullyStarted (s : Isys) (k : Nat) : Prop where
  nrStreaming : (s.streams k).nrStreaming = (s.streams k).nrQueues
  streaming : (s.streams k).streaming = true
  firmware : launched k s.fw.cmds = true

-- ---------------------------------------------------------------------------
-- Who shares a slot
-- ---------------------------------------------------------------------------

/-- A slot in use belongs to one virtual channel of one receiver, no two slots to the
same one, and the slot of a node to the channel of its route. -/
structure Shared (s : Isys) (g : Graph) : Prop where
  wf : Wf s
  refs : ∀ k, s.streamsRefCount k = (s.streams k).queues.length
  bound : ∀ k, s.streamsRefCount k ≠ 0 → k < IPU4_ISYS_MAX_STREAMS
  distinct : ∀ k k', s.streamsRefCount k ≠ 0 → s.streamsRefCount k' ≠ 0 →
    s.streamsVc k = s.streamsVc k' → s.streamsAsd k = s.streamsAsd k' → k = k'
  node : ∀ j k, (s.av j).stream = some k → ∃ pad, g.link j = .ok (s.streamsAsd k, pad) ∧
    pad ∈ (g.receiver (s.streamsAsd k)).pads ∧
    (g.receiver (s.streamsAsd k)).channel pad = .ok (s.streamsVc k)
  nrQueues : ∀ k, s.streamsRefCount k ≠ 0 →
    (s.streams k).nrQueues = (g.receiver (s.streamsAsd k)).pads.length
  room : ∀ asd pad, ∀ js : List Nat, js.Nodup →
    (∀ j ∈ js, Started s j ∧ g.link j = .ok (asd, pad)) → js.length ≤ (g.receiver asd).pads.count pad

section
variable {s s' : Isys} {g g' : Graph} {i k asd pad vc : Nat} {js : List Nat}

theorem Shared.used (h : Shared s g) (hst : (s.av i).stream = some k) : s.streamsRefCount k ≠ 0 := by
  rw [h.refs]
  exact Nat.ne_of_gt (List.length_pos_of_mem ((h.wf.mem i k).mpr hst))

theorem started_of (hst : (s.av i).stream = some k) : Started s i := by
  rw [Started, hst]
  exact Option.some_ne_none k

theorem shared_initial (g : Graph) : Shared initial g where
  wf := wf_initial
  refs := fun _ => rfl
  bound := fun _ h => absurd rfl h
  distinct := fun _ _ h => absurd rfl h
  node := fun j k h => by simp [initial] at h
  nrQueues := fun _ h => absurd rfl h
  room := fun asd pad js _ hjs => by
    cases js with
    | nil => exact Nat.zero_le _
    | cons j js => exact absurd rfl (hjs j List.mem_cons_self).1

theorem Shared.length_le (h : Shared s g) (asd : Nat) (hnd : js.Nodup)
    (hjs : ∀ j ∈ js, Started s j ∧ ∃ pad, g.link j = .ok (asd, pad)) :
    js.length ≤ (g.receiver asd).pads.length := by
  -- the pad that a node is linked to
  let padOf : Nat → Nat := fun j => match g.link j with
    | .ok (_, pad) => pad
    | .error _ => 0
  have hsub : (js.map padOf).Subperm (g.receiver asd).pads := by
    refine List.subperm_ext_iff.mpr fun pad _ => ?_
    rw [List.count_eq_length_filter, List.filter_map, List.length_map]
    refine h.room asd pad _ (hnd.filter _) fun j hj => ?_
    obtain ⟨hmem, hpad⟩ := List.mem_filter.mp hj
    obtain ⟨hst, pad', hlink⟩ := hjs j hmem
    refine ⟨hst, ?_⟩
    have hpad' : pad' = pad := by simpa [padOf, hlink] using hpad
    rw [hlink, hpad']
  simpa using hsub.length_le

theorem Shared.configure (h : Shared s g) (hg : ∀ i, Started s i → g'.link i = g.link i ∧
    ∀ asd pad, g.link i = .ok (asd, pad) → g'.receiver asd = g.receiver asd) : Shared s g' where
  wf := h.wf
  refs := h.refs
  bound := h.bound
  distinct := h.distinct
  node := fun j k hj => by
    obtain ⟨pad, hlink, hpad⟩ := h.node j k hj
    obtain ⟨hlink', hreceiver⟩ := hg j (started_of hj)
    rw [hreceiver _ _ hlink]
    exact ⟨pad, hlink'.trans hlink, hpad⟩
  nrQueues := fun k hk => by
    rw [h.nrQueues k hk]
    rw [h.refs] at hk
    obtain ⟨j, hj⟩ := List.exists_mem_of_ne_nil _ (List.length_pos_iff.mp (Nat.pos_of_ne_zero hk))
    have hst := (h.wf.mem j k).mp hj
    obtain ⟨pad, hlink, -⟩ := h.node j k hst
    rw [(hg j (started_of hst)).2 _ _ hlink]
  room := fun asd pad js hnd hjs => by
    cases js with
    | nil => exact Nat.zero_le _
    | cons j js =>
      have hold : ∀ x ∈ j :: js, Started s x ∧ g.link x = .ok (asd, pad) := fun x hx => by
        obtain ⟨hst, hlink⟩ := hjs x hx
        exact ⟨hst, (hg x hst).1 ▸ hlink⟩
      obtain ⟨hst, hlink⟩ := hold j List.mem_cons_self
      rw [(hg j hst).2 _ _ hlink]
      exact h.room asd pad _ hnd hold

theorem Shared.keep (h : Shared s g) (hw : Wf s') (hrefs : s'.streamsRefCount = s.streamsRefCount)
    (hkeep : KeepsUsed s s') (hav : ∀ j, (s'.av j).stream = (s.av j).stream)
    (hst : ∀ k, SameQueues (s.streams k) (s'.streams k)) : Shared s' g where
  wf := hw
  refs := fun k => by rw [hrefs, h.refs, (hst k).queues]
  bound := fun k hk => h.bound k (hrefs ▸ hk)
  distinct := fun k k' hk hk' hvc hasd => by
    rw [hrefs] at hk hk'
    rw [(hkeep k hk).1, (hkeep k' hk').1] at hvc
    rw [(hkeep k hk).2, (hkeep k' hk').2] at hasd
    exact h.distinct k k' hk hk' hvc hasd
  node := fun j k hj => by
    rw [hav] at hj
    obtain ⟨hvc, hasd⟩ := hkeep k (h.used hj)
    rw [hvc, hasd]
    exact h.node j k hj
  nrQueues := fun k hk => by
    rw [hrefs] at hk
    rw [(hkeep k hk).2, ← h.nrQueues k hk]
    refine ((hst k).ready fun hnil => hk ?_).2
    rw [h.refs, hnil]
    rfl
  room := fun asd pad js hnd hjs => h.room asd pad js hnd fun j hj => by
    obtain ⟨hst, hlink⟩ := hjs j hj
    exact ⟨by rwa [Started, hav] at hst, hlink⟩

theorem Shared.join (h : Shared s g) (hw : Wf s')
    (hk : k < IPU4_ISYS_MAX_STREAMS) (hlink : g.link i = .ok (asd, pad))
    (hpad : pad ∈ (g.receiver asd).pads) (hchannel : (g.receiver asd).channel pad = .ok vc)
    (hroom : g.Room s i) (hkeep : KeepsUsed s s') (hfind : Finds s vc asd k s')
    (hrefs : s'.streamsRefCount = Function.update s.streamsRefCount k (s.streamsRefCount k + 1))
    (hav : ∀ j, (s'.av j).stream = if j = i then some k else (s.av j).stream)
    (hother : ∀ k', k' ≠ k → s'.streams k' = s.streams k')
    (hq : (s'.streams k).queues = i :: (s.streams k).queues)
    (hnr : (s'.streams k).nrQueues =
      if s.streamsRefCount k = 0 then ((g.receiver asd).pads.length : Int) else (s.streams k).nrQueues) :
    Shared s' g := by
  -- the used slots are the old ones and `k`
  have hused : ∀ {k'}, s'.streamsRefCount k' ≠ 0 → k' = k ∨ k' ≠ k ∧ s.streamsRefCount k' ≠ 0 := by
    intro k' hk'
    by_cases heq : k' = k
    · exact .inl heq
    · rw [hrefs, Function.update_of_ne heq] at hk'
      exact .inr ⟨heq, hk'⟩
  have hdistinct : ∀ {k'}, k' ≠ k → s.streamsRefCount k' ≠ 0 →
      ¬ (s.streamsVc k' = vc ∧ s.streamsAsd k' = asd) := by
    rintro k' hne href hpair
    rcases hfind.shared with hold | hnone
    · obtain ⟨hvc, hasd⟩ := hkeep k hold
      refine hne (h.distinct k' k href hold ?_ ?_)
      · rw [hpair.1, ← hfind.streamsVc, hvc]
      · rw [hpair.2, ← hfind.streamsAsd, hasd]
    · exact hnone k' (h.bound k' href) href hpair
  refine ⟨hw, fun k' => ?_, fun k' hk' => ?_, fun k₁ k₂ hk₁ hk₂ hvc hasd => ?_, fun j k' hj => ?_,
    fun k' hk' => ?_, fun asd' pad' js hnd hjs => ?_⟩
  · by_cases heq : k' = k
    · subst heq
      rw [hrefs, Function.update_self, hq, h.refs]
      rfl
    · rw [hrefs, Function.update_of_ne heq, hother k' heq, h.refs]
  · rcases hused hk' with rfl | ⟨-, href⟩
    · exact hk
    · exact h.bound k' href
  · rcases hused hk₁ with rfl | ⟨hne₁, href₁⟩ <;> rcases hused hk₂ with rfl | ⟨hne₂, href₂⟩
    · rfl
    · rw [hfind.streamsVc, (hkeep k₂ href₂).1] at hvc
      rw [hfind.streamsAsd, (hkeep k₂ href₂).2] at hasd
      exact absurd ⟨hvc.symm, hasd.symm⟩ (hdistinct hne₂ href₂)
    · rw [hfind.streamsVc, (hkeep k₁ href₁).1] at hvc
      rw [hfind.streamsAsd, (hkeep k₁ href₁).2] at hasd
      exact absurd ⟨hvc, hasd⟩ (hdistinct hne₁ href₁)
    · rw [(hkeep k₁ href₁).1, (hkeep k₂ href₂).1] at hvc
      rw [(hkeep k₁ href₁).2, (hkeep k₂ href₂).2] at hasd
      exact h.distinct k₁ k₂ href₁ href₂ hvc hasd
  · rw [hav] at hj
    split at hj
    next heq =>
      obtain rfl := Option.some.inj hj
      rw [hfind.streamsVc, hfind.streamsAsd, heq]
      exact ⟨pad, hlink, hpad, hchannel⟩
    next =>
      obtain ⟨hvc, hasd⟩ := hkeep k' (h.used hj)
      rw [hvc, hasd]
      exact h.node j k' hj
  · rcases hused hk' with rfl | ⟨hne, href⟩
    · rw [hnr, hfind.streamsAsd]
      split
      · rfl
      next hold => rw [h.nrQueues k' hold, ← (hkeep k' hold).2, hfind.streamsAsd]
    · rw [hother k' hne, (hkeep k' href).2]
      exact h.nrQueues k' href
  · -- without `i`, the nodes are old ones
    have hold : ∀ j ∈ js.erase i, Started s j ∧ g.link j = .ok (asd', pad') := by
      intro j hj
      obtain ⟨hne, hmem⟩ := (hnd.mem_erase_iff).mp hj
      obtain ⟨hst, hlink'⟩ := hjs j hmem
      rw [Started, hav, if_neg hne] at hst
      exact ⟨hst, hlink'⟩
    by_cases hi : i ∈ js
    · obtain ⟨-, hlink'⟩ := hjs i hi
      obtain ⟨rfl, rfl⟩ := Prod.mk.inj (Except.ok.inj (hlink.symm.trans hlink'))
      have hlt := hroom asd pad hlink hpad (js.erase i) (hnd.erase i) hold
      rw [List.length_erase_of_mem hi] at hlt
      omega
    · rw [← List.erase_of_not_mem hi]
      exact h.room asd' pad' _ (hnd.erase i) hold

theorem Shared.leave (h : Shared s g) (hw : Wf s') (hin : (s.av i).stream = some k)
    (hvc : s'.streamsVc = s.streamsVc) (hasd : s'.streamsAsd = s.streamsAsd)
    (hrefs : s'.streamsRefCount = Function.update s.streamsRefCount k (s.streamsRefCount k - 1))
    (hav : ∀ j, (s'.av j).stream = if j = i then none else (s.av j).stream)
    (hother : ∀ k', k' ≠ k → s'.streams k' = s.streams k')
    (hq : (s'.streams k).queues = (s.streams k).queues.erase i)
    (hnr : (s'.streams k).nrQueues = (s.streams k).nrQueues) : Shared s' g := by
  have hused : ∀ {k'}, s'.streamsRefCount k' ≠ 0 → s.streamsRefCount k' ≠ 0 := by
    intro k' hk' hzero
    by_cases heq : k' = k
    · subst heq
      exact h.used hin hzero
    · rw [hrefs, Function.update_of_ne heq] at hk'
      exact hk' hzero
  refine ⟨hw, fun k' => ?_, fun k' hk' => h.bound k' (hused hk'), fun k₁ k₂ hk₁ hk₂ hpair => ?_,
    fun j k' hj => ?_, fun k' hk' => ?_, fun asd' pad' js hnd hjs => ?_⟩
  · by_cases heq : k' = k
    · subst heq
      rw [hrefs, Function.update_self, hq, h.refs,
        List.length_erase_of_mem ((h.wf.mem i k').mpr hin)]
    · rw [hrefs, Function.update_of_ne heq, hother k' heq, h.refs]
  · rw [hvc] at hpair
    rw [hasd]
    exact h.distinct k₁ k₂ (hused hk₁) (hused hk₂) hpair
  · rw [hav] at hj
    split at hj
    · cases hj
    · rw [hvc, hasd]
      exact h.node j k' hj
  · rw [hasd, ← h.nrQueues k' (hused hk')]
    by_cases heq : k' = k
    · subst heq
      exact hnr
    · rw [hother k' heq]
  · refine h.room asd' pad' js hnd fun j hj => ?_
    obtain ⟨hst, hlink⟩ := hjs j hj
    rw [Started, hav] at hst
    split at hst
    · exact absurd rfl hst
    · exact ⟨hst, hlink⟩

-- ---------------------------------------------------------------------------
-- One step
-- ---------------------------------------------------------------------------

theorem setup_link {env : SetupEnv} (hset : env = g.setup i p) (hpad : env.remotePad = .ok (asd, pad)) :
    g.link i = .ok (asd, pad) ∧ env.routes = (g.receiver asd).pads ∧
      env.channel = (g.receiver asd).channel pad := by
  subst hset
  unfold Graph.setup at hpad ⊢
  cases hlink : g.link i with
  | error ret =>
    rw [hlink] at hpad
    cases hpad
  | ok l =>
    rw [hlink] at hpad
    obtain ⟨asd', pad'⟩ := l
    obtain ⟨rfl, rfl⟩ := Prod.mk.inj (Except.ok.inj hpad)
    exact ⟨rfl, rfl, rfl⟩

theorem Shared.start (h : Shared s g) (hc : (s.av i).called = false)
    (hset : env.setup = g.setup i p) (hroom : g.Room s i) : Shared (apply s (.start i env)) g := by
  have hw := h.wf.start hc env
  have hno := h.wf.stream_none hc
  have hend := h.wf.start_end hc env
  have hkeep := startStreaming_keepsUsed s env i
  have hfind : ∀ {k e}, env.slot s i = some (k, e) → ∃ asd pad vc, env.setup.remotePad = .ok (asd, pad) ∧
      pad ∈ env.setup.routes ∧ env.setup.channel = .ok vc ∧
      Finds s vc asd k (startStreaming s env i).1 := fun hslot => startStreaming_finds hslot
  simp only [apply] at hw ⊢
  generalize startStreaming s env i = r at hw hend hkeep hfind ⊢
  obtain ⟨s', ret⟩ := r
  dsimp only at hw hend hkeep hfind ⊢
  have hback : ∀ {b c}, Unwound s s' i b → ∀ j, ((s'.setCalled i c).av j).stream = (s.av j).stream := by
    intro b c hun j
    rw [setCalled_stream, hun.av]
    exact (update_streaming_same s i b j).1
  have hjoin : ∀ {k e b c} {st : Stream}, env.slot s i = some (k, e) → k < IPU4_ISYS_MAX_STREAMS →
      Entered s s' i k b → s'.streams = Function.update s.streams k st →
      st.queues = i :: (s.streams k).queues → st.nrQueues = (env.stream s k e).nrQueues →
      Wf (s'.setCalled i c) → Shared (s'.setCalled i c) g := by
    intro k e b c st hslot hk hent hst hq hnr hw
    obtain ⟨asd, pad, vc, hpad, hroute, hchannel, hfind⟩ := hfind hslot
    obtain ⟨hlink, hroutes, hch⟩ := setup_link hset hpad
    refine h.join hw hk hlink (hroutes ▸ hroute) (hch.symm.trans hchannel) hroom hkeep
      ⟨hfind.streamsVc, hfind.streamsAsd, hfind.shared⟩ hent.refs (fun j => ?_) (fun k' hk' => ?_) ?_ ?_
    · rw [setCalled_stream, hent.av]
      by_cases hj : j = i
      · subst hj
        simp
      · simp [hj]
    · show s'.streams k' = _
      rw [hst, Function.update_of_ne hk']
    · show (s'.streams k).queues = _
      rw [hst, Function.update_self, hq]
    · show (s'.streams k).nrQueues = _
      have hzero : (s.streams k).nrStreaming = 0 ↔ s.streamsRefCount k = 0 := by
        rw [h.wf.count, h.refs]
        omega
      rw [hst, Function.update_self, hnr, StartEnv.stream, hroutes]
      simp only [hzero]
      split
      · rfl
      · rfl
  cases hend with
  | refused _ _ hun hst =>
    exact h.keep hw hun.refs hkeep (hback hun) fun k => congrFun hst k ▸ .refl _
  | unprepared _ hnr hq => exact absurd (h.wf.first hnr) hq
  | waiting hslot hk _ _ _ hent _ hst =>
    exact hjoin hslot hk hent hst (congrArg (i :: ·) (stream_queues env s _ _)) rfl hw
  | failed _ hfirst _ _ _ hun hst =>
    exact h.keep hw hun.refs hkeep (hback hun) fun k' =>
      congrFun hst k' ▸ sameQueues_update (stream_same hfirst) k'
  | lost _ hfirst _ _ _ _ hun hst =>
    exact h.keep hw hun.refs hkeep (hback hun) fun k' =>
      congrFun hst k' ▸ sameQueues_update ((stream_same hfirst).streaming true) k'
  | started hslot hk _ _ _ _ _ hent _ hst =>
    exact hjoin hslot hk hent hst (congrArg (i :: ·) (stream_queues env s _ _)) rfl hw

theorem Shared.stop (h : Shared s g) (hc : (s.av i).called = true) (env : StopEnv) :
    Shared (apply s (.stop i env)) g := by
  obtain ⟨k, hk⟩ := h.wf.slot hc
  have hw := h.wf.stop hc env
  have hstays := stays_stopStreaming s env hk
  have hrefs := stopStreaming_refs s env hk
  have hleave : ∀ b, StopEnd s i k b (stopStreaming s env i) → Shared (apply s (.stop i env)) g := by
    intro b hend
    refine h.leave hw hk hstays.streamsVc hstays.streamsAsd hrefs (fun j => ?_) (fun k' hk' => ?_) ?_ ?_
    · simp only [apply]
      rw [setCalled_stream, hend.av]
      by_cases hj : j = i
      · subst hj
        simp
      · simp [hj]
    · show (stopStreaming s env i).streams k' = _
      rw [hend.streams, Function.update_of_ne hk']
    · show ((stopStreaming s env i).streams k).queues = _
      rw [hend.streams, Function.update_self]
      rfl
    · show ((stopStreaming s env i).streams k).nrQueues = _
      rw [hend.streams, Function.update_self]
      rfl
  rcases stopStreaming_end s env hk with ⟨-, -, hend⟩ | ⟨-, -, -, hend⟩
  · exact hleave _ hend
  · exact hleave _ hend

theorem restart_streams (h : RestartEnd s env i k s') : s'.streams = s.streams := by
  cases h with
  | kept _ hq => exact hq.streams
  | closed _ _ _ hst => exact hst
  | restarted _ _ _ hst => exact hst

theorem Shared.apply (h : Shared s g) (op : Op) (hok : Allowed s op) (hop : g.Orderly s op) :
    Shared (apply s op) g := by
  have hw := h.wf.apply op hok
  cases op with
  | queue b env =>
    obtain ⟨k, hstays, -⟩ := stays_bufQueue s env b
    obtain ⟨-, hrefs⟩ := bufQueue_replays s env b
    refine h.keep hw hrefs.refs hstays.keepsUsed hrefs.stream fun k' => ?_
    show SameQueues (s.streams k') ((bufQueue s env b).streams k')
    have hend := h.wf.queue_end hok env
    generalize bufQueue s env b = s' at hend ⊢
    cases hend with
    | added _ hq => exact hq.streams ▸ .refl _
    | dropped _ _ _ hq => exact hq.streams ▸ .refl _
    | captured _ _ _ _ hq => exact hq.streams ▸ .refl _
    | failed _ _ _ _ _ hq => exact hq.streams ▸ .refl _
    | started _ _ _ _ _ _ hst => exact hst ▸ sameQueues_update ((SameQueues.refl _).streaming true) k'
  | start i env => exact h.start hok hop.1 hop.2.1
  | stop i env => exact h.stop hok env
  | restart i env =>
    obtain ⟨k, hk⟩ := Option.ne_none_iff_exists'.mp hok.1
    have hrefs := sameRefs_restartStream s env i
    refine h.keep hw hrefs.refs (stays_restartStream s env hk).1.keepsUsed hrefs.stream fun k' => ?_
    exact restart_streams (h.wf.restart_end hk env) ▸ .refl _
  | ready k pin pinAddr errorCheck =>
    obtain ⟨hq, -, -⟩ := pinDataReady_quiet s k pin pinAddr errorCheck
    refine h.keep hw hq.refs (fun k' _ => ?_) (fun j => by rw [Capture.apply, hq.av]) fun k' =>
      hq.streams ▸ .refl _
    simp only [Capture.apply, pinDataReady]
    split
    · exact ⟨rfl, rfl⟩
    split
    · exact ⟨rfl, rfl⟩
    · exact ⟨rfl, rfl⟩

/-- A stream with all its nodes streams. -/
def Live (s : Isys) : Prop :=
  ∀ k, s.streamsRefCount k ≠ 0 → (s.streams k).nrStreaming = (s.streams k).nrQueues → FullyStarted s k

theorem FullyStarted.keep (h : FullyStarted s k) (hst : s'.streams k = s.streams k)
    (hlaunched : launched k s'.fw.cmds = launched k s.fw.cmds) : FullyStarted s' k :=
  ⟨by rw [hst]; exact h.nrStreaming, by rw [hst]; exact h.streaming, hlaunched.trans h.firmware⟩

theorem Live.start (hl : Live s) (h : Shared s g) (hc : (s.av i).called = false)
    (hset : env.setup = g.setup i p) (hfed : g.Fed s i) : Live (Capture.apply s (.start i env)) := by
  have hno := h.wf.stream_none hc
  have hnd := h.wf.nodup_cons hno
  have hend := h.wf.start_end hc env
  have hsent : ∀ {k e}, env.slot s i = some (k, e) → Sent k s.fw (startStreaming s env i).1.fw :=
    fun hslot => startStreaming_sent hno hslot
  have hlaunched : ∀ {k e}, env.slot s i = some (k, e) → env.completes s i k e →
      (startStreaming s env i).2 = 0 → launched k (startStreaming s env i).1.fw.cmds = true :=
    fun hslot hcomp hret => startStreaming_launched hno (hnd _) hslot hcomp hret
  have hfind : ∀ {k e}, env.slot s i = some (k, e) → ∃ asd pad vc, env.setup.remotePad = .ok (asd, pad) ∧
      pad ∈ env.setup.routes ∧ env.setup.channel = .ok vc ∧
      Finds s vc asd k (startStreaming s env i).1 := fun hslot => startStreaming_finds hslot
  have hkeep := startStreaming_keepsUsed s env i
  simp only [Capture.apply]
  generalize startStreaming s env i = r at hend hsent hlaunched hfind hkeep ⊢
  obtain ⟨s', ret⟩ := r
  dsimp only at hend hsent hlaunched hfind hkeep ⊢
  -- a slot other than that of the node
  have hother : ∀ {k e k' c} {st : Stream}, env.slot s i = some (k, e) → k' ≠ k →
      s.streamsRefCount k' ≠ 0 → s'.streams = Function.update s.streams k st →
      (s'.streams k').nrStreaming = (s'.streams k').nrQueues → FullyStarted (s'.setCalled i c) k' := by
    intro k e k' c st hslot hne href hst hcomp
    have hsame : s'.streams k' = s.streams k' := by rw [hst, Function.update_of_ne hne]
    rw [hsame] at hcomp
    exact (hl k' href hcomp).keep hsame ((hsent hslot).launched hne)
  -- the slot of the node, if it has not joined
  have hleft : ∀ {k e} {st : Stream}, env.slot s i = some (k, e) → env.completes s i k e →
      s'.streams = Function.update s.streams k st → st.nrStreaming = (s.streams k).nrStreaming →
      st.nrQueues = (env.stream s k e).nrQueues → (s'.streams k).nrStreaming ≠ (s'.streams k).nrQueues := by
    intro k e st _ hcomp hst hnr hnrq
    have := hcomp.1
    rw [hst, Function.update_self, hnr, hnrq]
    omega
  intro k' href' hcomp'
  change s'.streamsRefCount k' ≠ 0 at href'
  change (s'.streams k').nrStreaming = (s'.streams k').nrQueues at hcomp'
  cases hend with
  | refused _ _ hun hst hlog =>
    rw [hun.refs] at href'
    rw [hst] at hcomp'
    exact (hl k' href' hcomp').keep (congrFun hst k') (congrArg (launched k') hlog.cmds)
  | unprepared _ hnr hq => exact absurd (h.wf.first hnr) hq
  | @waiting k e _ hslot _ _ _ hnot hent _ hst =>
    by_cases hk : k' = k
    · subst hk
      refine absurd ⟨?_, ?_⟩ hnot
      · rw [hst, Function.update_self] at hcomp'
        rw [← stream_nrStreaming env s k' e]
        exact hcomp'
      · -- the other nodes of the stream are on the same receiver
        obtain ⟨asd, pad, vc, hpad, -, -, hfind⟩ := hfind hslot
        obtain ⟨hlink, -, -⟩ := setup_link hset hpad
        rintro j (_ | ⟨_, hj⟩)
        · exact hfed.1
        · have hjst := (h.wf.mem j k').mp hj
          obtain ⟨pad', hlink', -⟩ := h.node j k' hjst
          rw [← (hkeep k' (h.used hjst)).2, hfind.streamsAsd] at hlink'
          exact hfed.2 j asd pad pad' (started_of hjst) hlink hlink'
    · rw [hent.refs, Function.update_of_ne hk] at href'
      exact hother hslot hk href' hst hcomp'
  | @failed k e _ _ hslot _ hcomp _ _ hun hst =>
    rw [hun.refs] at href'
    by_cases hk : k' = k
    · subst hk
      exact absurd hcomp' (hleft hslot hcomp hst (stream_nrStreaming env s k' e) rfl)
    · exact hother hslot hk href' hst hcomp'
  | @lost k e _ _ hslot _ hcomp _ _ _ hun hst =>
    rw [hun.refs] at href'
    by_cases hk : k' = k
    · subst hk
      exact absurd hcomp' (hleft hslot hcomp hst (stream_nrStreaming env s k' e) rfl)
    · exact hother hslot hk href' hst hcomp'
  | @started k e _ hslot _ _ _ hcomp _ _ hent _ hst =>
    by_cases hk : k' = k
    · subst hk
      refine ⟨hcomp', ?_, hlaunched hslot hcomp rfl⟩
      show (s'.streams k').streaming = true
      rw [hst, Function.update_self]
    · rw [hent.refs, Function.update_of_ne hk] at href'
      exact hother hslot hk href' hst hcomp'

theorem Live.stop (hl : Live s) (h : Shared s g) (hc : (s.av i).called = true) (env : StopEnv) :
    Live (Capture.apply s (.stop i env)) := by
  obtain ⟨k, hk⟩ := h.wf.slot hc
  have hstays := stays_stopStreaming s env hk
  have hrefs := stopStreaming_refs s env hk
  have hstreams : (stopStreaming s env i).streams =
      Function.update s.streams k { (s.streams k).leave i with streaming := false } := by
    rcases stopStreaming_end s env hk with ⟨-, -, hend⟩ | ⟨-, -, -, hend⟩
    · exact hend.streams
    · exact hend.streams
  intro k' href' hcomp'
  change (stopStreaming s env i).streamsRefCount k' ≠ 0 at href'
  change ((stopStreaming s env i).streams k').nrStreaming = ((stopStreaming s env i).streams k').nrQueues
    at hcomp'
  by_cases heq : k' = k
  · -- without the node the stream does not have all its nodes
    subst heq
    have hle := h.length_le (s.streamsAsd k') (h.wf.nodup k') fun j hj => by
      obtain ⟨pad, hlink, -⟩ := h.node j k' ((h.wf.mem j k').mp hj)
      exact ⟨started_of ((h.wf.mem j k').mp hj), pad, hlink⟩
    rw [hstreams, Function.update_self] at hcomp'
    change (s.streams k').nrStreaming - 1 = (s.streams k').nrQueues at hcomp'
    rw [h.wf.count, h.nrQueues k' (h.used hk)] at hcomp'
    omega
  · have hsame : (stopStreaming s env i).streams k' = s.streams k' := by
      rw [hstreams, Function.update_of_ne heq]
    rw [hrefs, Function.update_of_ne heq] at href'
    rw [hsame] at hcomp'
    exact (hl k' href' hcomp').keep hsame (hstays.sent.launched heq)

theorem Live.queue (hl : Live s) (hw : Wf s) (hb : b ∉ s.bufs.held) (env : BufQueueEnv) :
    Live (Capture.apply s (.queue b env)) := by
  obtain ⟨k, hstays, hkeeps⟩ := stays_bufQueue s env b
  obtain ⟨-, hrefs⟩ := bufQueue_replays s env b
  have hst : ∀ k', ((bufQueue s env b).streams k').nrStreaming = (s.streams k').nrStreaming ∧
      ((bufQueue s env b).streams k').nrQueues = (s.streams k').nrQueues ∧
      ((s.streams k').streaming = true → ((bufQueue s env b).streams k').streaming = true) := by
    intro k'
    have hend := hw.queue_end hb env
    generalize bufQueue s env b = s' at hend ⊢
    cases hend with
    | added _ hq => exact hq.streams ▸ ⟨rfl, rfl, id⟩
    | dropped _ _ _ hq => exact hq.streams ▸ ⟨rfl, rfl, id⟩
    | captured _ _ _ _ hq => exact hq.streams ▸ ⟨rfl, rfl, id⟩
    | failed _ _ _ _ _ hq => exact hq.streams ▸ ⟨rfl, rfl, id⟩
    | @started k _ _ _ _ _ _ _ hst =>
      rw [hst]
      by_cases hk : k' = k
      · subst hk
        rw [Function.update_self]
        exact ⟨rfl, rfl, fun _ => rfl⟩
      · rw [Function.update_of_ne hk]
        exact ⟨rfl, rfl, id⟩
  intro k' href' hcomp'
  change (bufQueue s env b).streamsRefCount k' ≠ 0 at href'
  change ((bufQueue s env b).streams k').nrStreaming = ((bufQueue s env b).streams k').nrQueues at hcomp'
  obtain ⟨hnr, hnrq, hstr⟩ := hst k'
  have hfull := hl k' (hrefs.refs ▸ href') (hnr ▸ hnrq ▸ hcomp')
  refine ⟨hcomp', hstr hfull.streaming, ?_⟩
  show launched k' (bufQueue s env b).fw.cmds = true
  by_cases hk : k' = k
  · subst hk
    rw [hkeeps hfull.streaming]
    exact hfull.firmware
  · rw [hstays.sent.launched hk]
    exact hfull.firmware

theorem Live.restart (hl : Live s) (hw : Wf s) (hk : (s.av i).stream = some k) (env : RestartEnv)
    (hret : (restartStream s env i).2 = 0) : Live (Capture.apply s (.restart i env)) := by
  obtain ⟨hstays, hlaunched⟩ := stays_restartStream s env hk
  have hrefs := sameRefs_restartStream s env i
  have hst := restart_streams (hw.restart_end hk env)
  intro k' href' hcomp'
  change (restartStream s env i).1.streamsRefCount k' ≠ 0 at href'
  change ((restartStream s env i).1.streams k').nrStreaming = _ at hcomp'
  rw [hrefs.refs] at href'
  rw [show (Capture.apply s (.restart i env)).streams = s.streams from hst, hst] at hcomp'
  have hfull := hl k' href' hcomp'
  by_cases heq : k' = k
  · subst heq
    refine ⟨?_, ?_, hlaunched hret⟩
    · rw [show (Capture.apply s (.restart i env)).streams = s.streams from hst]
      exact hcomp'
    · rw [show (Capture.apply s (.restart i env)).streams = s.streams from hst]
      exact hfull.streaming
  · exact hfull.keep (congrFun hst k') (hstays.sent.launched heq)

theorem Live.apply (hl : Live s) (h : Shared s g) (op : Op) (hok : Allowed s op) (hop : g.Orderly s op) :
    Live (Capture.apply s op) := by
  cases op with
  | queue b env => exact hl.queue h.wf hok env
  | start i env => exact hl.start h hok hop.1 hop.2.2
  | stop i env => exact hl.stop h hok env
  | restart i env =>
    obtain ⟨k, hk⟩ := Option.ne_none_iff_exists'.mp hok.1
    exact hl.restart h.wf hk env hop
  | ready k pin pinAddr errorCheck =>
    obtain ⟨hq, hfw, -⟩ := pinDataReady_quiet s k pin pinAddr errorCheck
    intro k' href' hcomp'
    change (pinDataReady s k pin pinAddr errorCheck).streamsRefCount k' ≠ 0 at href'
    change ((pinDataReady s k pin pinAddr errorCheck).streams k').nrStreaming =
      ((pinDataReady s k pin pinAddr errorCheck).streams k').nrQueues at hcomp'
    rw [hq.refs] at href'
    rw [hq.streams] at hcomp'
    exact (hl k' href' hcomp').keep (congrFun hq.streams k') (congrArg (launched k' ·.cmds) hfw)

theorem Step.keeps {sys sys' : System} {e : Event} (hstep : Step sys e sys')
    (h : Shared sys.isys sys.graph ∧ Live sys.isys) : Shared sys'.isys sys'.graph ∧ Live sys'.isys := by
  cases hstep with
  | op hok hop => exact ⟨h.1.apply _ hok hop, h.2.apply h.1 _ hok hop⟩
  | configure hg => exact ⟨h.1.configure hg, h.2⟩

theorem reachable_shared {sys : System} (h : Reachable Booted Step sys) :
    Shared sys.isys sys.graph ∧ Live sys.isys := by
  refine h.invariant (I := fun sys => Shared sys.isys sys.graph ∧ Live sys.isys) ?_
    fun _ _ _ hI hstep => hstep.keeps hI
  rintro ⟨s, g⟩ rfl
  exact ⟨shared_initial g, fun _ h => absurd rfl h⟩

-- ---------------------------------------------------------------------------
-- All nodes of a receiver
-- ---------------------------------------------------------------------------

theorem Shared.mem_queues (h : Shared s g) {k j : Nat} (hk : s.streamsRefCount k ≠ 0)
    (hcomp : (s.streams k).nrStreaming = (s.streams k).nrQueues) (hj : Started s j)
    (hlink : g.link j = .ok (s.streamsAsd k, pad)) : j ∈ (s.streams k).queues := by
  by_contra hnot
  have hle := h.length_le (s.streamsAsd k) (List.nodup_cons.mpr ⟨hnot, h.wf.nodup k⟩)
    (List.forall_mem_cons.mpr ⟨⟨hj, pad, hlink⟩, fun x hx => by
      have hst := (h.wf.mem x k).mp hx
      obtain ⟨pad, hlink, -⟩ := h.node x k hst
      exact ⟨started_of hst, pad, hlink⟩⟩)
  rw [h.wf.count, h.nrQueues k hk] at hcomp
  rw [List.length_cons] at hle
  omega

theorem fullyStarted_iff (h : Shared s g) (hl : Live s) {is : List Nat} (hnd : is.Nodup)
    (hnodes : (is.map g.link).Perm ((g.receiver asd).pads.map fun pad => .ok (asd, pad)))
    (hstarted : ∀ i ∈ is, Started s i) :
    (∀ i ∈ is, ∃ k, (s.av i).stream = some k ∧ FullyStarted s k) ↔ (g.receiver asd).OneChannel := by
  -- a node with its pad and its slot
  have hnode : ∀ i ∈ is, ∃ k pad, (s.av i).stream = some k ∧ s.streamsAsd k = asd ∧
      g.link i = .ok (asd, pad) ∧ pad ∈ (g.receiver asd).pads ∧
      (g.receiver asd).channel pad = .ok (s.streamsVc k) := by
    intro i hi
    obtain ⟨k, hk⟩ := Option.ne_none_iff_exists'.mp (hstarted i hi)
    obtain ⟨pad, hlink, hpad, hchannel⟩ := h.node i k hk
    obtain ⟨pad', -, hlink'⟩ := List.mem_map.mp (hnodes.mem_iff.mp (List.mem_map_of_mem hi))
    rw [hlink] at hlink'
    obtain ⟨rfl, rfl⟩ := Prod.mk.inj (Except.ok.inj hlink')
    exact ⟨k, pad', hk, rfl, hlink, hpad, hchannel⟩
  constructor
  · intro hfull a ha b hb
    have hget : ∀ pad ∈ (g.receiver asd).pads, ∃ i ∈ is, g.link i = .ok (asd, pad) := fun pad hpad =>
      List.mem_map.mp (hnodes.mem_iff.mpr (List.mem_map_of_mem hpad))
    obtain ⟨i, hi, hia⟩ := hget a ha
    obtain ⟨j, hj, hjb⟩ := hget b hb
    obtain ⟨k, pad, hk, rfl, hlink, -, hchannel⟩ := hnode i hi
    obtain ⟨k', pad', hk', -, hlink', -, hchannel'⟩ := hnode j hj
    obtain ⟨-, rfl⟩ := Prod.mk.inj (Except.ok.inj (hia.symm.trans hlink))
    obtain ⟨-, rfl⟩ := Prod.mk.inj (Except.ok.inj (hjb.symm.trans hlink'))
    obtain ⟨k₁, hk₁, hcomp⟩ := hfull i hi
    obtain rfl := Option.some.inj (hk.symm.trans hk₁)
    have hmem := h.mem_queues (h.used hk) hcomp.nrStreaming (hstarted j hj) hlink'
    obtain rfl := Option.some.inj (hk'.symm.trans ((h.wf.mem j k).mp hmem))
    exact hchannel.trans hchannel'.symm
  · intro hone i hi
    obtain ⟨k, pad, hk, rfl, hlink, hpad, hchannel⟩ := hnode i hi
    refine ⟨k, hk, hl k (h.used hk) ?_⟩
    have hsub : is ⊆ (s.streams k).queues := by
      intro j hj
      obtain ⟨k', pad', hk', hasd', -, hpad', hchannel'⟩ := hnode j hj
      have hvc : s.streamsVc k' = s.streamsVc k :=
        Except.ok.inj (hchannel'.symm.trans ((hone pad' hpad' pad hpad).trans hchannel))
      obtain rfl := h.distinct k' k (h.used hk') (h.used hk) hvc hasd'
      exact (h.wf.mem j k').mpr hk'
    have hge := (hnd.subperm hsub).length_le
    have hlen := hnodes.length_eq
    have hle := h.length_le (s.streamsAsd k) (h.wf.nodup k) fun j hj => by
      obtain ⟨pad, hlink, -⟩ := h.node j k ((h.wf.mem j k).mp hj)
      exact ⟨started_of ((h.wf.mem j k).mp hj), pad, hlink⟩
    rw [List.length_map, List.length_map] at hlen
    rw [h.wf.count, h.nrQueues k (h.used hk)]
    omega

end

/-- In every run in which a start finds buffers and an active route of its own: once
there is a started node for each active route of a receiver, all streams they belong to
really stream, if and only if all active routes carry the same virtual channel. -/
theorem receiver_streams_iff {sys : System} (h : Reachable Booted Step sys) (asd : Nat) (is : List Nat)
    (hnd : is.Nodup)
    (hnodes : (is.map sys.graph.link).Perm
      ((sys.graph.receiver asd).pads.map fun pad => .ok (asd, pad)))
    (hcalled : ∀ i ∈ is, (sys.isys.av i).called = true) :
    (∀ i ∈ is, ∃ k, (sys.isys.av i).stream = some k ∧ FullyStarted sys.isys k) ↔
      (sys.graph.receiver asd).OneChannel := by
  obtain ⟨hshared, hlive⟩ := reachable_shared h
  exact fullyStarted_iff hshared hlive hnd hnodes fun i hi => (hshared.wf.called i).mp (hcalled i hi)

/-- Two routes, whose streams are on channels 0 and `vc`. -/
def twoRoutes (vc : Nat) : Receiver where
  source := some 0
  frameDesc := .ok ⟨true, [⟨0, 0⟩, ⟨1, vc⟩]⟩
  routes := [⟨0, 0, 1, 0, 1⟩, ⟨0, 1, 2, 0, 1⟩]

/-- With a node for each. -/
def twoNodes (vc : Nat) : Graph where
  link
    | 0 => .ok (0, 1)
    | 1 => .ok (0, 2)
    | _ => .error ⟨-ENODEV, enodev_neg⟩
  receiver := fun _ => twoRoutes vc

def startNode (vc i : Nat) : StartEnv := { plainStart 1 with setup := (twoNodes vc).setup i none }

def bothQueued : Isys :=
  apply (apply initial (.queue ⟨0, 0, 4096⟩ plainQueue)) (.queue ⟨1, 0, 8192⟩ plainQueue)

def firstStarted (vc : Nat) : Isys := apply bothQueued (.start 0 (startNode vc 0))

def bothStarted (vc : Nat) : System := ⟨apply (firstStarted vc) (.start 1 (startNode vc 1)), twoNodes vc⟩

theorem twoNodes_link (h : (twoNodes vc).link j = .ok (asd, pad)) : j = 0 ∧ pad = 1 ∨ j = 1 ∧ pad = 2 := by
  match j with
  | 0 => exact .inl ⟨rfl, (Prod.mk.inj (Except.ok.inj h)).2.symm⟩
  | 1 => exact .inr ⟨rfl, (Prod.mk.inj (Except.ok.inj h)).2.symm⟩
  | j + 2 => cases h

theorem twoNodes_room (hno : (s.av i).stream = none) : (twoNodes vc).Room s i := by
  intro asd pad hlink hpad js _ hjs
  cases js with
  | nil => exact List.count_pos_iff.mpr hpad
  | cons j js =>
    obtain ⟨hst, hlink'⟩ := hjs j List.mem_cons_self
    have hj : j = i := by
      rcases twoNodes_link hlink with ⟨rfl, rfl⟩ | ⟨rfl, rfl⟩ <;>
        rcases twoNodes_link hlink' with ⟨rfl, h⟩ | ⟨rfl, h⟩ <;> first | rfl | cases h
    exact absurd (hj ▸ hno) hst

theorem twoNodes_fed (h : s.bufs.incoming 0 ≠ [] ∧ s.bufs.incoming 1 ≠ []) (hi : i < 2) :
    (twoNodes vc).Fed s i := by
  refine ⟨?_, fun j asd pad pad' _ _ hlink => ?_⟩
  · match i with
    | 0 => exact h.1
    | 1 => exact h.2
  · rcases twoNodes_link hlink with ⟨rfl, -⟩ | ⟨rfl, -⟩
    · exact h.1
    · exact h.2

theorem step_op (op : Op) (hok : Allowed s op) (hop : Graph.Orderly g s op) :
    Step ⟨s, g⟩ (.op op) ⟨apply s op, g⟩ := .op hok hop

theorem bothStarted_reachable (hvc : vc = 0 ∨ vc = 1) : Reachable Booted Step (bothStarted vc) := by
  have hbooted : Reachable Booted Step ⟨initial, twoNodes vc⟩ := .init rfl
  have hqueued : Reachable Booted Step ⟨bothQueued, twoNodes vc⟩ :=
    .step (.step hbooted (step_op (.queue ⟨0, 0, 4096⟩ plainQueue) (by decide) trivial))
      (step_op (.queue ⟨1, 0, 8192⟩ plainQueue) (by decide) trivial)
  have hfirst : Reachable Booted Step ⟨firstStarted vc, twoNodes vc⟩ := by
    have hnot : (bothQueued.av 0).called = false := by decide +kernel
    refine .step hqueued (step_op (.start 0 (startNode vc 0)) hnot ⟨rfl, ?_, ?_⟩)
    · exact twoNodes_room (by decide +kernel)
    · exact twoNodes_fed (by decide +kernel) (by decide)
  refine .step hfirst (step_op (.start 1 (startNode vc 1)) ?_ ⟨rfl, ?_, ?_⟩)
  · rcases hvc with rfl | rfl <;> decide +kernel
  · exact twoNodes_room (by rcases hvc with rfl | rfl <;> decide +kernel)
  · exact twoNodes_fed (by rcases hvc with rfl | rfl <;> decide +kernel) (by decide)

theorem receiver_streams_one_channel :
    (∃ k, ((bothStarted 0).isys.av 0).stream = some k ∧ FullyStarted (bothStarted 0).isys k) ∧
    (∃ k, ((bothStarted 0).isys.av 1).stream = some k ∧ FullyStarted (bothStarted 0).isys k) := by
  have hall : ∀ a ∈ (twoRoutes 0).pads, (twoRoutes 0).channel a = .ok 0 := by
    intro a ha
    have : a = 1 ∨ a = 2 := by simpa [twoRoutes, Receiver.pads, Route.active] using ha
    rcases this with rfl | rfl <;> rfl
  have hstreams := (receiver_streams_iff (bothStarted_reachable (.inl rfl)) 0 [0, 1] (by decide)
    (List.Perm.refl _) (by decide +kernel)).mpr
      fun a ha b hb => (hall a ha).trans (hall b hb).symm
  exact ⟨hstreams 0 (by decide), hstreams 1 (by decide)⟩

/-- The second node gets a slot of its own, and both wait for a second node. -/
theorem two_channels_never_stream : ¬ ∀ sys : System, Reachable Booted Step sys → ∀ (asd : Nat)
    (is : List Nat), is.Nodup → (is.map sys.graph.link).Perm
      ((sys.graph.receiver asd).pads.map fun pad => .ok (asd, pad)) →
    (∀ i ∈ is, (sys.isys.av i).called = true) →
    ∀ i ∈ is, ∃ k, (sys.isys.av i).stream = some k ∧ FullyStarted sys.isys k := by
  intro h
  obtain ⟨k, hk, hfull⟩ := h (bothStarted 1) (bothStarted_reachable (.inr rfl)) 0 [0, 1] (by decide)
    (List.Perm.refl _) (by decide +kernel) 0 (by decide)
  have hslot : ((bothStarted 1).isys.av 0).stream = some 0 := by decide +kernel
  obtain rfl := Option.some.inj (hslot.symm.trans hk)
  have hwait : ((bothStarted 1).isys.streams 0).streaming = false := by decide +kernel
  rw [hfull.streaming] at hwait
  cases hwait

end Ipu4.Capture.Receivers
