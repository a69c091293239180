import Ipu4.Probe.Isys

/-!
# What the input system holds

Each program of the probe is all or nothing, or leaves connections of the notifier behind.
From the contracts of its parts follows what is held after a probe and a removal.
-/

namespace Ipu4.IsysProbe

open Probe (Ret)
open Prog (undoing unwind initFrom firstError Acquires Releases Ends)

-- ---------------------------------------------------------------------------
-- What is held
-- ---------------------------------------------------------------------------

/-- An endpoint that `isys_notifier_init` stops at. -/
def endpointFails : Event → Bool
  | ⟨.get (.connection _), some _⟩ => true
  | ⟨.ask (.v4l2FwnodeEndpointParse _), some _⟩ => true
  | _ => false

def connectionAdded : Event → Bool
  | ⟨.get (.connection _), none⟩ => true
  | _ => false

structure Notes where
  added : Bool
  failed : Bool

def isConnection : Res → Prop
  | .connection _ => True
  | _ => False

/-- Unregistering does nothing to a device that is not registered. -/
def heldAfter (held : Res → Prop) : Event → Res → Prop
  | ⟨.get r, none⟩ => fun x => held x ∨ x = r
  | ⟨.take r, _⟩ => fun x => held x ∨ x = r
  | ⟨.put r, _⟩ => fun x => held x ∧ x ≠ r
  | ⟨.drop r, _⟩ => fun x => held x ∧ x ≠ r
  | ⟨.vb2VideoUnregisterDevice i, _⟩ => fun x =>
      held x ∧ (held (.videoDev i) → x ≠ .videoDev i ∧ x ≠ .videoQueue i)
  | ⟨.v4l2AsyncNfCleanup, _⟩ => fun x => held x ∧ ¬ isConnection x
  | _ => held

/-- Nothing is got that is held, and nothing put that is not. -/
def owner : Trace.Monitor (Owned Res Notes) Event where
  next t e := ⟨heldAfter t.held e, t.notes.added || connectionAdded e, t.notes.failed || endpointFails e⟩
  allows t e := match e.1 with
    | .get r | .take r => ¬ t.held r
    | .put r => t.held r
    | _ => True

def start : Owned Res Notes := ⟨fun _ => False, false, false⟩

theorem notes_after (t : Owned Res Notes) (es : List Event) :
    (Trace.after owner t es).notes =
      ⟨t.notes.added || es.any connectionAdded, t.notes.failed || es.any endpointFails⟩ := by
  induction es generalizing t with
  | nil => simp
  | cons e es ih =>
    rw [Trace.after_cons, ih]
    simp [owner, Bool.or_assoc]

-- ---------------------------------------------------------------------------
-- Parts
-- ---------------------------------------------------------------------------

inductive Part
  | mmu
  | mutexes
  | image
  | pkgDir
  | qos
  | msgs
  | media
  | v4l2
  | video
  | csi2
  | endpoint
  | connection
  | notifier
  deriving DecidableEq

def Res.part : Res → Part
  | .mmuReady => .mmu
  | .mutex | .streamMutex | .streamsMutex _ => .mutexes
  | .fwImage => .image
  | .pkgDir => .pkgDir
  | .pmQos => .qos
  | .fwMsg _ => .msgs
  | .mediaDev | .mediaNode => .media
  | .v4l2Dev => .v4l2
  | .videoMutex _ | .videoQueue _ | .videoDev _ => .video
  | .csi2State _ | .csi2Sd _ => .csi2
  | .endpoint _ => .endpoint
  | .connection _ => .connection
  | .notifier => .notifier

def Within (S : Res → Prop) (ps : List Part) : Prop := ∀ r, S r → r.part ∈ ps

theorem isConnection_part : isConnection r ↔ r.part = .connection := by
  cases r <;> simp [isConnection, Res.part]

section
variable {S S' : Res → Prop} {ps qs : List Part}

theorem Within.apart (h : Within S ps) (h' : Within S' qs) (hd : ∀ p ∈ ps, p ∉ qs) (r : Res)
    (hr : S r) : ¬ S' r :=
  fun hr' => hd _ (h r hr) (h' r hr')

theorem Within.or (h : Within S ps) (h' : Within S' qs) : Within (fun r => S r ∨ S' r) (ps ++ qs) := by
  rintro r (hr | hr)
  · exact List.mem_append_left _ (h r hr)
  · exact List.mem_append_right _ (h' r hr)

theorem within_eq (r : Res) : Within (· = r) [r.part] := by
  rintro x rfl
  exact List.mem_singleton_self _

end

-- ---------------------------------------------------------------------------
-- Single calls
-- ---------------------------------------------------------------------------

section
variable {t : Owned Res Notes} {r : Res} {S C : Res → Prop}

theorem owned_eq {t t' : Owned Res Notes} (h : ∀ r, t.held r ↔ t'.held r) (hn : t.notes = t'.notes) : t = t' := by
  obtain ⟨held, notes⟩ := t
  obtain ⟨held', notes'⟩ := t'
  obtain rfl : held = held' := funext fun r => propext (h r)
  obtain rfl : notes = notes' := hn
  rfl

theorem plain_notes (n : Notes) : (⟨n.added || false, n.failed || false⟩ : Notes) = n := by
  simp

theorem meets_ask_plain {q : Query} (hq : ∀ i, q ≠ .v4l2FwnodeEndpointParse i)
    {Q : Ret → Owned Res Notes → Prop} :
    Prog.Meets owner (ask q) t Q ↔ ∀ ret, Q ret t := by
  have hnext : ∀ ret, owner.next t ⟨.ask q, ret⟩ = t := fun ret => by
    cases q with
    | v4l2FwnodeEndpointParse i => exact absurd rfl (hq i)
    | _ => exact owned_eq (fun _ => Iff.rfl) (plain_notes _)
  show Prog.Meets owner (Prog.ask (Call.ask q)) t Q ↔ _
  rw [Prog.meets_ask]
  refine forall_congr' fun ret => ?_
  rw [hnext]
  exact and_iff_right trivial

theorem acquires_get (h : ¬ isConnection r) : Acquires owner (get r) (· = r) := by
  intro t ht x
  refine ⟨ht r rfl, ?_⟩
  have hadded : connectionAdded ⟨.get r, x⟩ = false := by
    cases r <;> cases x <;> first | rfl | exact absurd trivial h
  have hfails : endpointFails ⟨.get r, x⟩ = false := by
    cases r <;> cases x <;> first | rfl | exact absurd trivial h
  have hnotes : (owner.next t ⟨.get r, x⟩).notes = t.notes := by
    show (⟨t.notes.added || connectionAdded ⟨.get r, x⟩, t.notes.failed || endpointFails ⟨.get r, x⟩⟩ : Notes) = _
    rw [hadded, hfails, plain_notes]
  cases x with
  | none => exact owned_eq (fun _ => Iff.rfl) hnotes
  | some e => exact owned_eq (fun _ => Iff.rfl) hnotes

theorem take_meets (ht : ¬ t.held r) : Prog.Meets owner (take r) t fun _ t' => t' = t.add (· = r) :=
  fun _ => ⟨ht, owned_eq (fun _ => Iff.rfl) (plain_notes _)⟩

theorem acquires_taking (r : Res) : Acquires owner (taking r) (· = r) :=
  fun _ ht _ => ⟨ht r rfl, owned_eq (fun _ => Iff.rfl) (plain_notes _)⟩

theorem releases_put (r : Res) : Releases owner (put r) (· = r) := by
  intro t ht _
  refine ⟨.inr rfl, owned_eq (fun x => ?_) (plain_notes _)⟩
  show (t.held x ∨ x = r) ∧ x ≠ r ↔ t.held x
  constructor
  · rintro ⟨hx | hx, hne⟩
    · exact hx
    · exact absurd hx hne
  · exact fun hx => ⟨.inl hx, fun he => ht r rfl (he ▸ hx)⟩

theorem drop_meets (r : Res) (hC : ∀ x, C x → x = r) (ht : ¬ t.held r) :
    Prog.Meets owner (drop r) (t.add C) fun _ t' => t' = t := by
  intro _
  refine ⟨trivial, owned_eq (fun x => ?_) (plain_notes _)⟩
  show (t.held x ∨ C x) ∧ x ≠ r ↔ t.held x
  constructor
  · rintro ⟨hx | hx, hne⟩
    · exact hx
    · exact absurd (hC x hx) hne
  · exact fun hx => ⟨.inl hx, fun he => ht (he ▸ hx)⟩

end

-- ---------------------------------------------------------------------------
-- Video nodes
-- ---------------------------------------------------------------------------

theorem unregister_nothing {t : Owned Res Notes} (h : ¬ t.held (.videoDev i)) :
    Prog.Meets owner (vb2VideoUnregisterDevice i) t fun _ t' => t' = t := by
  intro _
  exact ⟨trivial, owned_eq (fun x => and_iff_left fun hd => absurd hd h) (plain_notes _)⟩

theorem releases_unregister (i : Nat) :
    Releases owner (vb2VideoUnregisterDevice i) fun r => r = .videoQueue i ∨ r = .videoDev i := by
  intro t ht _
  refine ⟨trivial, owned_eq (fun x => ?_) (plain_notes _)⟩
  show (t.held x ∨ x = .videoQueue i ∨ x = .videoDev i) ∧
    (t.held (.videoDev i) ∨ .videoDev i = Res.videoQueue i ∨ Res.videoDev i = .videoDev i →
      x ≠ .videoDev i ∧ x ≠ .videoQueue i) ↔ t.held x
  constructor
  · rintro ⟨hx | hx, hne⟩
    · exact hx
    · obtain ⟨hdev, hqueue⟩ := hne (.inr (.inr rfl))
      exact absurd hx (not_or.mpr ⟨hqueue, hdev⟩)
  · intro hx
    refine ⟨.inl hx, fun _ => ⟨?_, ?_⟩⟩
    · exact fun he => ht _ (.inr rfl) (he ▸ hx)
    · exact fun he => ht _ (.inl rfl) (he ▸ hx)

theorem registerVideo_acquires (i : Nat) : Acquires owner (registerVideo i) (· = .videoDev i) := by
  intro t ht
  unfold registerVideo
  rw [Prog.meets_bind, meets_ask_plain fun _ => Query.noConfusion]
  rintro (_ | e)
  · refine Prog.meets_onError ((acquires_get id t ht).imp fun ret t' ht' => ?_) (by rfl) fun _ => by rfl
    cases ret with
    | none => exact ht'
    | some e =>
      obtain rfl := ht'
      exact unregister_nothing (ht _ rfl)
  · rfl

/-- What `ipu6_isys_video_init` gets. -/
def VideoRes (i : Nat) (r : Res) : Prop := r = .videoMutex i ∨ r = .videoQueue i ∨ r = .videoDev i

theorem video_rounds : Prog.Rounds owner ipu6IsysVideoInit ipu6IsysVideoCleanup VideoRes where
  init i := by
    refine (acquires_taking _).undoing (releases_put _) ?_ fun r hr => ?_
    · refine (acquires_get id).undoing (releases_put _) (registerVideo_acquires i) fun r hr => ?_
      exact hr ▸ Res.noConfusion
    · exact hr ▸ not_or.mpr ⟨Res.noConfusion, Res.noConfusion⟩
  fini i := by
    refine ((releases_unregister i).andThen (releases_put _) ?_).congr fun r => or_comm
    rintro r (rfl | rfl)
    · exact Res.noConfusion
    · exact Res.noConfusion
  apart := by
    rintro i j r (rfl | rfl | rfl) (h | h | h) <;> cases h <;> rfl

def VideoAll (r : Res) : Prop := ∃ i < NR_OF_VIDEO_DEVICE, VideoRes i r

theorem videoAll_within : Within VideoAll [.video] := by
  rintro r ⟨i, -, rfl | rfl | rfl⟩ <;> exact List.mem_singleton_self _

-- ---------------------------------------------------------------------------
-- CSI-2 sub-devices
-- ---------------------------------------------------------------------------

/-- What `ipu6_isys_csi2_init` gets. -/
def Csi2Res (i : Nat) (r : Res) : Prop := r = .csi2State i ∨ r = .csi2Sd i

theorem csi2Cleanup_meets {t : Owned Res Notes} {C : Res → Prop} (hC : ∀ r, C r → Csi2Res i r)
    (ht : Owned.Free (Csi2Res i) t) :
    Prog.Meets owner (ipu6IsysCsi2Cleanup i) (t.add C) fun _ t' => t' = t := by
  have hsplit : t.add C = (t.add fun r => C r ∧ r = .csi2State i).add fun r => C r ∧ r = .csi2Sd i := by
    rw [Owned.add_add]
    refine Owned.add_congr t fun r => ⟨fun hr => ?_, ?_⟩
    · exact (hC r hr).imp (⟨hr, ·⟩) (⟨hr, ·⟩)
    · rintro (hr | hr)
      · exact hr.1
      · exact hr.1
  have hsd : ¬ (t.add fun r => C r ∧ r = .csi2State i).held (.csi2Sd i) :=
    not_or.mpr ⟨ht _ (.inr rfl), fun h => Res.noConfusion h.2⟩
  unfold ipu6IsysCsi2Cleanup
  rw [Prog.meets_bind, hsplit]
  refine (drop_meets _ (fun x hx => hx.2) hsd).imp fun _ t' heq => ?_
  rw [heq]
  exact drop_meets _ (fun x hx => hx.2) (ht _ (.inl rfl))

theorem csi2Steps_meets {t : Owned Res Notes} (ht : Owned.Free (Csi2Res i) t) :
    Prog.Meets owner (csi2Steps i) t fun ret t' =>
      ∃ C, (∀ r, C r → Csi2Res i r) ∧ t' = t.add C ∧ (ret = none → ∀ r, Csi2Res i r → C r) := by
  have hnone : t = t.add fun _ => False := (Owned.add_none t fun _ => id).symm
  unfold csi2Steps
  rw [Prog.meets_bind, meets_ask_plain fun _ => Query.noConfusion]
  rintro (_ | e)
  · show Prog.Meets owner (ask .mediaEntityPadsInit >>= _) _ _
    rw [Prog.meets_bind, meets_ask_plain fun _ => Query.noConfusion]
    rintro (_ | e)
    · show Prog.Meets owner (get (.csi2State i) >>= _) _ _
      rw [Prog.meets_bind]
      refine (acquires_get id t fun r hr => ht r (.inl hr)).imp fun ret t' ht' => ?_
      cases ret with
      | some e =>
        refine ⟨fun _ => False, fun _ => False.elim, ?_, fun h => absurd h (Option.some_ne_none _)⟩
        exact Eq.trans ht' hnone
      | none =>
        obtain rfl := ht'
        have hsd : Owned.Free (· = Res.csi2Sd i) (t.add (· = .csi2State i)) :=
          Owned.Free.add (fun r hr => ht r (.inr hr)) fun r hr => hr ▸ Res.noConfusion
        refine (acquires_get id _ hsd).imp fun ret t' ht' => ?_
        cases ret with
        | some e =>
          exact ⟨(· = .csi2State i), fun r hr => .inl hr, ht', fun h => absurd h (Option.some_ne_none _)⟩
        | none =>
          refine ⟨Csi2Res i, fun r hr => hr, ?_, fun _ r hr => hr⟩
          exact Eq.trans ht' (Owned.add_add t _ _)
    · exact ⟨fun _ => False, fun _ => False.elim, hnone, fun h => absurd h (Option.some_ne_none _)⟩
  · exact ⟨fun _ => False, fun _ => False.elim, hnone, fun h => absurd h (Option.some_ne_none _)⟩

theorem csi2_rounds : Prog.Rounds owner ipu6IsysCsi2Init ipu6IsysCsi2Cleanup Csi2Res where
  init i := by
    intro t ht
    refine Prog.meets_onError ((csi2Steps_meets ht).imp fun ret t' ht' => ?_) (by rfl) fun _ => by rfl
    obtain ⟨C, hC, rfl, hall⟩ := ht'
    cases ret with
    | none => exact Owned.add_congr t fun r => ⟨hC r, hall rfl r⟩
    | some e => exact csi2Cleanup_meets hC ht
  fini i := fun t ht => csi2Cleanup_meets (fun _ => id) ht
  apart := by
    rintro i j r (rfl | rfl) (h | h) <;> cases h <;> rfl

def Csi2All (r : Res) : Prop := ∃ i < nports, Csi2Res i r

theorem csi2All_within : Within Csi2All [.csi2] := by
  rintro r ⟨i, -, rfl | rfl⟩ <;> exact List.mem_singleton_self _

theorem registerSubdevices_acquires : Acquires owner isysCsi2RegisterSubdevices Csi2All := by
  intro t ht
  unfold isysCsi2RegisterSubdevices
  rw [Prog.meets_bind, meets_ask_plain fun _ => Query.noConfusion]
  rintro (_ | e)
  · exact csi2_rounds.acquires nports t ht
  · rfl

theorem unregisterSubdevices_releases : Releases owner isysCsi2UnregisterSubdevices Csi2All :=
  (csi2_rounds.releases _ List.nodup_range).congr fun r => by simp [Csi2All]

theorem unregisterVideoDevices_releases : Releases owner isysUnregisterVideoDevices VideoAll :=
  (video_rounds.releases _ List.nodup_range).congr fun r => by simp [VideoAll]

-- ---------------------------------------------------------------------------
-- The notifier
-- ---------------------------------------------------------------------------

section
variable {C S : Res → Prop} {ps : List Part}

theorem createMediaLinks_meets (t : Owned Res Notes) :
    Prog.Meets owner isysCsi2CreateMediaLinks t fun _ t' => t' = t := by
  have hlink : ∀ q ∈ links, ∀ i, q ≠ .v4l2FwnodeEndpointParse i := by
    intro q hq i he
    simp [links, he] at hq
  refine Prog.meets_firstError (I := fun qs t' => (∀ q ∈ qs, q ∈ links) ∧ t' = t) links ⟨fun _ => id, rfl⟩ ?_
    fun _ ht => ht.2
  rintro q qs t' ⟨hqs, rfl⟩
  rw [meets_ask_plain (hlink q (hqs q List.mem_cons_self))]
  rintro (_ | e)
  · exact ⟨fun q' hq' => hqs q' (List.mem_cons_of_mem q hq'), rfl⟩
  · rfl

def fail (t : Owned Res Notes) : Owned Res Notes := { t with notes := ⟨t.notes.added, true⟩ }

def connect (t : Owned Res Notes) (i : Nat) : Owned Res Notes :=
  ⟨fun x => t.held x ∨ x = .connection i, true, t.notes.failed⟩

/-- The connections of `C` have been added. -/
structure Connected (t t' : Owned Res Notes) (C : Res → Prop) : Prop where
  held : ∀ r, t'.held r ↔ t.held r ∨ C r
  conn : ∀ r, C r → isConnection r
  added : t'.notes.added = true ↔ t.notes.added = true ∨ ∃ r, C r

theorem Connected.refl (t : Owned Res Notes) : Connected t t fun _ => False where
  held _ := (or_iff_left id).symm
  conn _ := False.elim
  added := (or_iff_left fun ⟨_, h⟩ => h).symm

theorem Connected.connect (h : Connected t t' C) (i : Nat) :
    Connected t (connect t' i) fun r => C r ∨ r = .connection i where
  held r := (or_congr_left (h.held r)).trans or_assoc
  conn := by
    rintro r (hr | rfl)
    · exact h.conn r hr
    · trivial
  added := iff_of_true rfl (.inr ⟨_, .inr rfl⟩)

theorem Connected.fail (h : Connected t t' C) : Connected t (fail t') C := ⟨h.held, h.conn, h.added⟩

theorem parse_meets (i : Nat) (t : Owned Res Notes) :
    Prog.Meets owner (ask (.v4l2FwnodeEndpointParse i)) t fun ret t' =>
      t' = if ret.isNone then t else fail t := by
  rintro (_ | e)
  · exact ⟨trivial, owned_eq (fun _ => Iff.rfl) (plain_notes _)⟩
  · exact ⟨trivial, owned_eq (fun _ => Iff.rfl)
      (congrArg₂ Notes.mk (Bool.or_false _) (Bool.or_true _))⟩

theorem connection_meets {t : Owned Res Notes} (h : ¬ t.held (.connection i)) :
    Prog.Meets owner (get (.connection i)) t fun ret t' =>
      t' = if ret.isNone then connect t i else fail t := by
  rintro (_ | e)
  · exact ⟨h, owned_eq (fun _ => Iff.rfl) (congrArg₂ Notes.mk (Bool.or_true _) (Bool.or_false _))⟩
  · exact ⟨h, owned_eq (fun _ => Iff.rfl) (congrArg₂ Notes.mk (Bool.or_false _) (Bool.or_true _))⟩

theorem addConnection_meets {t : Owned Res Notes} (h : ¬ t.held (.connection i)) :
    Prog.Meets owner (addConnection i) t fun ret t' => t' = if ret.isNone then connect t i else fail t := by
  unfold addConnection
  rw [Prog.meets_bind]
  refine (parse_meets i t).imp fun ret t' ht' => ?_
  cases ret with
  | some e => exact ht'
  | none =>
    obtain rfl := ht'
    exact connection_meets h

theorem notifierPort_meets {t : Owned Res Notes} (hep : ¬ t.held (.endpoint i)) (h : ¬ t.held (.connection i)) :
    Prog.Meets owner (notifierPort i) t fun ret t' =>
      if ret.isNone then t' = t ∨ t' = connect t i else t' = fail t := by
  unfold notifierPort
  rw [Prog.meets_bind]
  refine (acquires_get id t fun r hr => hr ▸ hep).imp fun ret t' ht' => ?_
  cases ret with
  | some e => exact .inl ht'
  | none =>
    obtain rfl := ht'
    show Prog.Meets owner (addConnection i >>= _) _ _
    rw [Prog.meets_bind]
    have hconn : ¬ (t.add (· = .endpoint i)).held (.connection i) := not_or.mpr ⟨h, Res.noConfusion⟩
    refine (addConnection_meets hconn).imp fun ret t' ht' => ?_
    show Prog.Meets owner (put (.endpoint i) >>= fun _ => pure ret) t' _
    rw [Prog.meets_bind]
    cases ret with
    | none =>
      have heq : t' = (connect t i).add (· = .endpoint i) :=
        ht'.trans (owned_eq (fun _ => or_right_comm) rfl)
      have hfree : Owned.Free (· = Res.endpoint i) (connect t i) := fun r hr =>
        hr ▸ not_or.mpr ⟨hep, Res.noConfusion⟩
      rw [heq]
      exact (releases_put _ _ hfree).imp fun _ t'' h'' => .inr h''
    | some e =>
      rw [ht']
      exact releases_put (.endpoint i) (fail t) fun r hr => hr ▸ hep

/-- What `isys_notifier_init` gets. -/
def NotifierRes (r : Res) : Prop := r.part ∈ [.endpoint, .connection, .notifier]

theorem notifierPorts_meets {t : Owned Res Notes} (ht : Owned.Free NotifierRes t) :
    Prog.Meets owner (firstError notifierPort (List.range ISYS_MAX_PORTS)) t fun ret t' =>
      ∃ C, Connected t t' C ∧ t'.notes.failed = (t.notes.failed || ret.isSome) := by
  refine Prog.meets_firstError
    (I := fun is t' => is.Nodup ∧ ∃ C, Connected t t' C ∧ (∀ i ∈ is, ¬ C (.connection i)) ∧
      t'.notes.failed = t.notes.failed) _ ?_ ?_ ?_
  · exact ⟨List.nodup_range, _, .refl t, fun _ _ => id, rfl⟩
  · rintro i is t' ⟨hnodup, C, hC, hfresh, hfailed⟩
    obtain ⟨hi, hnodup⟩ := List.nodup_cons.mp hnodup
    have hep : ¬ t'.held (.endpoint i) := fun h =>
      ((hC.held _).mp h).elim (ht _ (by simp [NotifierRes, Res.part])) (hC.conn _)
    have hconn : ¬ t'.held (.connection i) := fun h =>
      ((hC.held _).mp h).elim (ht _ (by simp [NotifierRes, Res.part])) (hfresh i List.mem_cons_self)
    have hrest : ∀ j ∈ is, ¬ C (.connection j) := fun j hj => hfresh j (List.mem_cons_of_mem i hj)
    refine (notifierPort_meets hep hconn).imp fun ret t'' h'' => ?_
    cases ret with
    | none =>
      refine ⟨hnodup, ?_⟩
      rcases h'' with rfl | rfl
      · exact ⟨C, hC, hrest, hfailed⟩
      · refine ⟨_, hC.connect i, fun j hj => not_or.mpr ⟨hrest j hj, fun he => hi ?_⟩, hfailed⟩
        exact Res.connection.inj he ▸ hj
    | some e =>
      obtain rfl := h''
      exact ⟨C, hC.fail, (Bool.or_true _).symm⟩
  · rintro t' ⟨-, C, hC, -, hfailed⟩
    exact ⟨C, hC, hfailed.trans (Bool.or_false _).symm⟩

theorem nfCleanup_meets {t t' : Owned Res Notes} (ht : Owned.Free isConnection t)
    (hheld : ∀ r, t'.held r ↔ t.held r ∨ C r) (hC : ∀ r, C r → isConnection r) :
    Prog.Meets owner v4l2AsyncNfCleanup t' fun _ t'' => (∀ r, t''.held r ↔ t.held r) ∧ t''.notes = t'.notes := by
  intro _
  refine ⟨trivial, fun r => ?_, plain_notes _⟩
  show t'.held r ∧ ¬ isConnection r ↔ t.held r
  rw [hheld]
  constructor
  · rintro ⟨hr | hr, hno⟩
    · exact hr
    · exact absurd (hC r hr) hno
  · exact fun hr => ⟨.inl hr, fun h => ht r h hr⟩

/-- The connections that are left, and when there are some. -/
def Left (t t' : Owned Res Notes) : Prop :=
  ∃ C : Res → Prop, (∀ r, C r → isConnection r) ∧ (∀ r, t'.held r ↔ t.held r ∨ C r) ∧
    (t.notes = ⟨false, false⟩ → ((∃ r, C r) ↔ t'.notes.failed = true ∧ t'.notes.added = true))

def Done (t t' : Owned Res Notes) : Prop :=
  ∃ C : Res → Prop, (∀ r, C r → isConnection r) ∧ (∀ r, t'.held r ↔ t.held r ∨ C r ∨ r = .notifier) ∧
    t'.notes.failed = t.notes.failed

theorem left_of_same {t t' : Owned Res Notes} (h : ∀ r, t'.held r ↔ t.held r)
    (hfailed : t'.notes.failed = t.notes.failed) : Left t t' := by
  refine ⟨fun _ => False, fun _ => False.elim, fun r => (h r).trans (or_iff_left id).symm, fun hn => ?_⟩
  rw [hfailed, hn]
  simp

theorem done_framed (h : Within S ps) (hps : .connection ∉ ps) (hps' : .notifier ∉ ps) : Owned.Framed Done S := by
  rintro t u ht ⟨C, hC, hheld, hfailed⟩
  have hSC : ∀ r, S r → ¬ C r := fun r hr hr' => hps (isConnection_part.mp (hC r hr') ▸ h r hr)
  have hSn : ∀ r, S r → ¬ r = .notifier := by
    rintro r hr rfl
    exact hps' (h _ hr)
  refine ⟨⟨fun r => t.held r ∨ C r ∨ r = .notifier, u.notes⟩, ⟨C, hC, fun _ => Iff.rfl, hfailed⟩, ?_, ?_⟩
  · exact fun r hr => not_or.mpr ⟨ht r hr, not_or.mpr ⟨hSC r hr, hSn r hr⟩⟩
  · exact owned_eq (fun r => (hheld r).trans or_right_comm) rfl

theorem left_framed (h : Within S ps) (hps : .connection ∉ ps) : Owned.Framed Left S := by
  rintro t u ht ⟨C, hC, hheld, hleft⟩
  have hSC : ∀ r, S r → ¬ C r := fun r hr hr' => hps (isConnection_part.mp (hC r hr') ▸ h r hr)
  refine ⟨⟨fun r => t.held r ∨ C r, u.notes⟩, ⟨C, hC, fun _ => Iff.rfl, hleft⟩, ?_, ?_⟩
  · exact fun r hr => not_or.mpr ⟨ht r hr, hSC r hr⟩
  · exact owned_eq (fun r => (hheld r).trans or_right_comm) rfl

theorem linkAndNotify_ends : Ends owner linkAndNotify (Owned.Free NotifierRes) Done Left := by
  intro t ht
  have hfree : Owned.Free isConnection t := fun r hr =>
    ht r (by rw [NotifierRes, isConnection_part.mp hr]; decide)
  unfold linkAndNotify
  rw [Prog.meets_bind]
  refine (createMediaLinks_meets t).imp fun ret t' ht' => ?_
  obtain rfl := ht'
  cases ret with
  | some e => exact left_of_same (fun _ => Iff.rfl) rfl
  | none =>
    show Prog.Meets owner isysNotifierInit t' _
    unfold isysNotifierInit
    rw [Prog.meets_bind]
    refine (notifierPorts_meets ht).imp fun ret t'' h'' => ?_
    obtain ⟨C, hC, hfailed⟩ := h''
    cases ret with
    | some e =>
      refine ⟨C, hC.conn, hC.held, fun hn => ?_⟩
      rw [hfailed, hC.added, hn]
      simp
    | none =>
      have hnotifier : Owned.Free (· = Res.notifier) t'' := by
        rintro r rfl hr
        exact ((hC.held _).mp hr).elim (ht _ (by simp [NotifierRes, Res.part])) (hC.conn _)
      refine Prog.meets_onError ((acquires_get id t'' hnotifier).imp fun ret u hu => ?_) (by rfl) fun _ => by rfl
      cases ret with
      | none =>
        obtain rfl := hu
        exact ⟨C, hC.conn, fun r => (or_congr_left (hC.held r)).trans or_assoc,
          hfailed.trans (Bool.or_false _)⟩
      | some e =>
        obtain rfl := hu
        refine (nfCleanup_meets hfree hC.held hC.conn).imp fun _ u' hu' => ?_
        exact left_of_same hu'.1 ((congrArg Notes.failed hu'.2).trans (hfailed.trans (Bool.or_false _)))

theorem notifierCleanup_meets {t t' : Owned Res Notes} (ht : Owned.Free NotifierRes t)
    (hheld : ∀ r, t'.held r ↔ t.held r ∨ C r ∨ r = .notifier) (hC : ∀ r, C r → isConnection r) :
    Prog.Meets owner isysNotifierCleanup t' fun _ t'' =>
      (∀ r, t''.held r ↔ t.held r) ∧ t''.notes.failed = t'.notes.failed := by
  have hfree : Owned.Free isConnection t := fun r hr =>
    ht r (by rw [NotifierRes, isConnection_part.mp hr]; decide)
  have heq : t' = (⟨fun r => t.held r ∨ C r, t'.notes⟩ : Owned Res Notes).add (· = .notifier) :=
    owned_eq (fun r => (hheld r).trans or_assoc.symm) rfl
  have hnotifier : Owned.Free (· = Res.notifier) (⟨fun r => t.held r ∨ C r, t'.notes⟩ : Owned Res Notes) := by
    rintro r rfl hr
    exact hr.elim (ht _ (by simp [NotifierRes, Res.part])) (hC _)
  unfold isysNotifierCleanup
  rw [Prog.meets_bind, heq]
  refine (releases_put _ _ hnotifier).imp fun _ u hu => ?_
  rw [hu]
  refine (nfCleanup_meets hfree (fun _ => Iff.rfl) hC).imp fun _ u' hu' => ?_
  exact ⟨hu'.1, congrArg Notes.failed hu'.2⟩

end

-- ---------------------------------------------------------------------------
-- The devices
-- ---------------------------------------------------------------------------

def MediaRes (r : Res) : Prop := r = .mediaDev ∨ r = .mediaNode

def StreamMutexRes (r : Res) : Prop := ∃ i ∈ List.range IPU4_ISYS_MAX_STREAMS, r = .streamsMutex i

def MutexRes (r : Res) : Prop := StreamMutexRes r ∨ r = .mutex ∨ r = .streamMutex

def FwMsgRes (r : Res) : Prop := ∃ i < 20, r = .fwMsg i

def FirmwareRes (secureMode : Bool) (r : Res) : Prop := secureMode = false ∧ (r = .pkgDir ∨ r = .fwImage)

theorem mediaRes_within : Within MediaRes [.media] := by
  rintro r (rfl | rfl) <;> exact List.mem_singleton_self _

theorem mutexRes_within : Within MutexRes [.mutexes] := by
  rintro r (⟨i, -, rfl⟩ | rfl | rfl) <;> exact List.mem_singleton_self _

theorem fwMsgRes_within : Within FwMsgRes [.msgs] := by
  rintro r ⟨i, -, rfl⟩
  exact List.mem_singleton_self _

theorem firmwareRes_within (secureMode : Bool) : Within (FirmwareRes secureMode) [.pkgDir, .image] := by
  rintro r ⟨-, rfl | rfl⟩
  · exact List.mem_cons_self
  · exact List.mem_cons_of_mem _ List.mem_cons_self

theorem notifierRes_within : Within NotifierRes [.endpoint, .connection, .notifier] := fun _ => id

theorem unregisterMedia_meets {t : Owned Res Notes} {C : Res → Prop} (hC : ∀ r, C r → r = .mediaNode)
    (ht : Owned.Free MediaRes t) :
    Prog.Meets owner unregisterMedia ((t.add (· = .mediaDev)).add C) fun _ t' => t' = t := by
  have hnode : ¬ (t.add (· = .mediaDev)).held .mediaNode := not_or.mpr ⟨ht _ (.inr rfl), Res.noConfusion⟩
  unfold unregisterMedia
  rw [Prog.meets_bind]
  refine (drop_meets _ hC hnode).imp fun _ t' heq => ?_
  rw [heq]
  exact releases_put _ t fun r hr => ht r (.inl hr)

theorem unregisterMedia_releases : Releases owner unregisterMedia MediaRes := by
  intro t ht
  have hsplit : t.add MediaRes = (t.add (· = .mediaDev)).add (· = .mediaNode) := (Owned.add_add t _ _).symm
  rw [hsplit]
  exact unregisterMedia_meets (fun _ => id) ht

theorem registerMedia_acquires : Acquires owner registerMedia MediaRes := by
  intro t ht
  have hnode : Owned.Free (· = Res.mediaNode) (t.add (· = .mediaDev)) :=
    Owned.Free.add (fun r hr => ht r (.inr hr)) fun r hr => hr ▸ Res.noConfusion
  unfold registerMedia
  rw [Prog.meets_bind]
  refine (take_meets (ht _ (.inl rfl))).imp fun _ t' heq => ?_
  rw [heq]
  refine Prog.meets_onError ((acquires_get id _ hnode).imp fun ret t' ht' => ?_) (by rfl) fun _ => by rfl
  cases ret with
  | none =>
    obtain rfl := ht'
    exact Owned.add_add t _ _
  | some e =>
    obtain rfl := ht'
    show Prog.Meets owner unregisterMedia (t.add (· = .mediaDev)) _
    rw [← Owned.add_none (t.add (· = .mediaDev)) fun _ => id]
    exact unregisterMedia_meets (fun _ => False.elim) ht

theorem registerDevices_ends : Ends owner isysRegisterDevices
    (Owned.Free fun r => MediaRes r ∨ r = .v4l2Dev ∨ VideoAll r ∨ Csi2All r ∨ NotifierRes r)
    (fun t => Done ((((t.add MediaRes).add (· = .v4l2Dev)).add VideoAll).add Csi2All)) Left := by
  have hcsi2 := csi2All_within.apart notifierRes_within (by decide)
  have hvideo := videoAll_within.apart (csi2All_within.or notifierRes_within) (by decide)
  have hv4l2 := (within_eq .v4l2Dev).apart (videoAll_within.or (csi2All_within.or notifierRes_within)) (by decide)
  have hmedia := mediaRes_within.apart
    ((within_eq .v4l2Dev).or (videoAll_within.or (csi2All_within.or notifierRes_within))) (by decide)
  have hrefl : ∀ t, Left t t := fun t => left_of_same (fun _ => Iff.rfl) rfl
  have subdevices := Ends.undoing registerSubdevices_acquires unregisterSubdevices_releases linkAndNotify_ends
    hcsi2 (left_framed csi2All_within (by decide)) hrefl
  have nodes := Ends.undoing (video_rounds.acquires _) unregisterVideoDevices_releases subdevices
    hvideo (left_framed videoAll_within (by decide)) hrefl
  have v4l2 := Ends.undoing (acquires_get id) (releases_put _) nodes
    hv4l2 (left_framed (within_eq _) (by decide)) hrefl
  exact Ends.undoing registerMedia_acquires unregisterMedia_releases v4l2
    hmedia (left_framed mediaRes_within (by decide)) hrefl

-- ---------------------------------------------------------------------------
-- Mutexes and messages
-- ---------------------------------------------------------------------------

theorem mutex_rounds : Prog.Rounds owner (fun i => taking (.streamsMutex i)) (fun i => put (.streamsMutex i))
    (fun i r => r = .streamsMutex i) where
  init _ := acquires_taking _
  fini _ := releases_put _
  apart := by
    rintro i j r rfl h
    exact Res.streamsMutex.inj h

theorem fwMsg_rounds : Prog.Rounds owner (fun i => get (.fwMsg i)) putFwMsg (fun i r => r = .fwMsg i) where
  init _ := acquires_get id
  fini _ := releases_put _
  apart := by
    rintro i j r rfl h
    exact Res.fwMsg.inj h

theorem allocFwMsgBufs_acquires : Acquires owner (allocFwMsgBufs 20) FwMsgRes := by
  intro t ht
  unfold allocFwMsgBufs
  rw [Prog.meets_bind]
  refine (fwMsg_rounds.acquires 20 t ht).imp fun ret t' ht' => ?_
  cases ret with
  | none => exact ht'
  | some e => exact ht'

theorem initMutexes_acquires : Acquires owner initMutexes MutexRes := by
  intro t ht
  have hstream : ¬ (t.add (· = .mutex)).held .streamMutex :=
    not_or.mpr ⟨ht _ (.inr (.inr rfl)), Res.noConfusion⟩
  unfold initMutexes
  rw [Prog.meets_bind]
  refine (take_meets (ht _ (.inr (.inl rfl)))).imp fun _ t' heq => ?_
  rw [heq, Prog.meets_bind]
  refine (take_meets hstream).imp fun _ t' heq => ?_
  rw [heq, Prog.meets_bind, Owned.add_add]
  refine (Prog.meets_forM_range
    (I := fun n t' => t' = (t.add fun r => r = .mutex ∨ r = .streamMutex).add
      fun r => ∃ i < n, r = .streamsMutex i)
    IPU4_ISYS_MAX_STREAMS ?_ ?_).imp fun _ t' heq => ?_
  · exact (Owned.add_none _ fun r ⟨i, hi, _⟩ => absurd hi (Nat.not_lt_zero i)).symm
  · rintro i hi t' rfl
    refine (take_meets ?_).imp fun _ t'' heq => ?_
    · rintro ((hr | hr | hr) | ⟨j, hj, hr⟩)
      · exact ht _ (.inl ⟨i, List.mem_range.mpr hi, rfl⟩) hr
      · exact Res.noConfusion hr
      · exact Res.noConfusion hr
      · have := Res.streamsMutex.inj hr
        omega
    · rw [heq, Owned.add_add]
      exact Owned.add_congr _ fun r => (Prog.exists_lt_succ (fun i r => r = .streamsMutex i) i r).symm
  · show t' = t.add MutexRes
    rw [heq, Owned.add_add]
    exact Owned.add_congr t fun r => by simp [MutexRes, StreamMutexRes, or_comm]

theorem streamMutexRes_others (hr : StreamMutexRes r) : ¬ (r = .mutex ∨ r = .streamMutex) := by
  obtain ⟨i, -, rfl⟩ := hr
  exact not_or.mpr ⟨Res.noConfusion, Res.noConfusion⟩

theorem destroyStreamMutexes_releases : Releases owner destroyStreamMutexes StreamMutexRes :=
  mutex_rounds.releases _ List.nodup_range

theorem destroyMutexes_releases : Releases owner destroyMutexes MutexRes := by
  have hlast : Releases owner (do put .mutex; put .streamMutex) fun r => r = .mutex ∨ r = .streamMutex :=
    (releases_put _).andThen (releases_put _) fun r hr => hr ▸ Res.noConfusion
  exact destroyStreamMutexes_releases.andThen hlast fun r => streamMutexRes_others

-- ---------------------------------------------------------------------------
-- The probe
-- ---------------------------------------------------------------------------

def DeviceRes (r : Res) : Prop := MediaRes r ∨ r = .v4l2Dev ∨ VideoAll r ∨ Csi2All r

theorem deviceRes_within : Within DeviceRes [.media, .v4l2, .video, .csi2] :=
  mediaRes_within.or ((within_eq .v4l2Dev).or (videoAll_within.or csi2All_within))

theorem probeDevices_ends : Ends owner probeDevices
    (Owned.Free fun r => r = .pmQos ∨ FwMsgRes r ∨ DeviceRes r ∨ NotifierRes r)
    (fun t => Done (((t.add (· = .pmQos)).add FwMsgRes).add DeviceRes)) Left := by
  have hrefl : ∀ t, Left t t := fun t => left_of_same (fun _ => Iff.rfl) rfl
  have hmsgs := fwMsgRes_within.apart (deviceRes_within.or notifierRes_within) (by decide)
  have hqos := (within_eq .pmQos).apart (fwMsgRes_within.or (deviceRes_within.or notifierRes_within)) (by decide)
  have devices : Ends owner isysRegisterDevices (Owned.Free fun r => DeviceRes r ∨ NotifierRes r)
      (fun t => Done (t.add DeviceRes)) Left := by
    intro t ht
    have hsplit : t.add DeviceRes = (((t.add MediaRes).add (· = .v4l2Dev)).add VideoAll).add Csi2All := by
      simp only [Owned.add_add, or_assoc]
      rfl
    simp only [hsplit]
    exact registerDevices_ends t fun r hr => ht r (by simpa only [DeviceRes, or_assoc] using hr)
  have msgs := Ends.undoing allocFwMsgBufs_acquires (fwMsg_rounds.unwind 20) devices
    hmsgs (left_framed fwMsgRes_within (by decide)) hrefl
  exact Ends.undoing (acquires_taking _) (releases_put _) msgs
    hqos (left_framed (within_eq _) (by decide)) hrefl

theorem probeFirmware_ends (secureMode : Bool) : Ends owner (probeFirmware secureMode)
    (Owned.Free fun r => FirmwareRes secureMode r ∨ r = .pmQos ∨ FwMsgRes r ∨ DeviceRes r ∨ NotifierRes r)
    (fun t => Done ((((t.add (FirmwareRes secureMode)).add (· = .pmQos)).add FwMsgRes).add DeviceRes)) Left := by
  have hrefl : ∀ t, Left t t := fun t => left_of_same (fun _ => Iff.rfl) rfl
  have hrest := (within_eq .pmQos).or (fwMsgRes_within.or (deviceRes_within.or notifierRes_within))
  cases secureMode with
  | true =>
    intro t ht
    have hnone : t.add (FirmwareRes true) = t := Owned.add_none t fun r hr => Bool.noConfusion hr.1
    simp only [hnone]
    exact probeDevices_ends t fun r hr => ht r (.inr hr)
  | false =>
    have hpkg := (within_eq .pkgDir).apart hrest (by decide)
    have himage := (within_eq .fwImage).apart ((within_eq .pkgDir).or hrest) (by decide)
    have pkgDir := Ends.undoing (acquires_get id) (releases_put _) probeDevices_ends
      hpkg (left_framed (within_eq _) (by decide)) hrefl
    have image := Ends.undoing (acquires_get id) (releases_put _) pkgDir
      himage (left_framed (within_eq _) (by decide)) hrefl
    intro t ht
    have hsplit : t.add (FirmwareRes false) = (t.add (· = .fwImage)).add (· = .pkgDir) := by
      rw [Owned.add_add]
      exact Owned.add_congr t fun r => by simp [FirmwareRes, or_comm]
    simp only [hsplit]
    refine image t fun r hr => ht r ?_
    rcases hr with hr | hr | hr
    · exact .inl ⟨rfl, .inr hr⟩
    · exact .inl ⟨rfl, .inl hr⟩
    · exact .inr hr

/-- What a probe that went well has got, besides the connections. -/
def ProbeRes (secureMode : Bool) (t : Owned Res Notes) : Owned Res Notes :=
  ((((t.add MutexRes).add (FirmwareRes secureMode)).add (· = .pmQos)).add FwMsgRes).add DeviceRes

theorem probeRes_held (secureMode : Bool) (t : Owned Res Notes) (r : Res) :
    (ProbeRes secureMode t).held r ↔ t.held r ∨ MutexRes r ∨ FirmwareRes secureMode r ∨ r = .pmQos ∨
      FwMsgRes r ∨ DeviceRes r := by
  simp [ProbeRes, Owned.add, or_assoc]

theorem probeRes_add (secureMode : Bool) (t : Owned Res Notes) (S : Res → Prop) :
    ProbeRes secureMode (t.add S) = (ProbeRes secureMode t).add S := by
  unfold ProbeRes
  rw [Owned.add_comm t S, Owned.add_comm _ S, Owned.add_comm _ S, Owned.add_comm _ S, Owned.add_comm _ S]

theorem isysProbe_ends (busReadyToProbe secureMode : Bool) :
    Prog.Meets owner (isysProbe busReadyToProbe secureMode) start fun ret t =>
      if ret.isNone then Done (ProbeRes secureMode start) t else Left start t := by
  have hstart : Left start start := left_of_same (fun _ => Iff.rfl) rfl
  have hfw := (firmwareRes_within secureMode).or
    ((within_eq .pmQos).or (fwMsgRes_within.or (deviceRes_within.or notifierRes_within)))
  have hmutex := mutexRes_within.apart hfw (by decide)
  have body := Ends.undoing initMutexes_acquires destroyMutexes_releases (probeFirmware_ends secureMode)
    hmutex (left_framed mutexRes_within (by decide)) fun t => left_of_same (fun _ => Iff.rfl) rfl
  have hmmu := (within_eq .mmuReady).apart (mutexRes_within.or hfw) (by decide)
  cases busReadyToProbe with
  | false => exact hstart
  | true =>
    show Prog.Meets owner (ask .devmAlloc >>= _) _ _
    rw [Prog.meets_bind, meets_ask_plain fun _ => Query.noConfusion]
    rintro (_ | e)
    · show Prog.Meets owner (ask .devmAlloc >>= _) _ _
      rw [Prog.meets_bind, meets_ask_plain fun _ => Query.noConfusion]
      rintro (_ | e)
      · show Prog.Meets owner (get .mmuReady >>= _) _ _
        rw [Prog.meets_bind]
        refine (acquires_get id start fun _ _ => id).imp fun ret t ht => ?_
        cases ret with
        | some e =>
          obtain rfl := ht
          exact hstart
        | none =>
          obtain rfl := ht
          have hfree : Owned.Free _ (start.add (· = .mmuReady)) := Owned.Free.add (fun r _ => id)
            fun r hr he => hmmu r he hr
          show Prog.Meets owner (undoing _ _ _ >>= _) _ _
          rw [Prog.meets_bind]
          refine (body _ hfree).imp fun ret t ht => ?_
          show Prog.Meets owner (put .mmuReady >>= fun _ => pure ret) t _
          rw [Prog.meets_bind]
          cases ret with
          | none =>
            have hfree' : Owned.Free (· = Res.mmuReady) (ProbeRes secureMode start) := by
              rintro r rfl hr
              rw [probeRes_held] at hr
              rcases hr with hr | hr | hr | hr | hr | hr
              · exact hr
              all_goals exact hmmu _ rfl (by simp [hr])
            have hdone : Done ((ProbeRes secureMode start).add (· = .mmuReady)) t := by
              rw [← probeRes_add]
              exact ht
            obtain ⟨u, hu, hufree, rfl⟩ := done_framed (within_eq .mmuReady) (by decide) (by decide)
              _ _ hfree' hdone
            refine (releases_put _ u hufree).imp fun _ t' heq => ?_
            rw [heq]
            exact hu
          | some e =>
            obtain ⟨u, hu, hufree, rfl⟩ := left_framed (within_eq .mmuReady) (by decide) _ _ (fun _ _ => id) ht
            refine (releases_put _ u hufree).imp fun _ t' heq => ?_
            rw [heq]
            exact hu
      · exact hstart
    · exact hstart

-- ---------------------------------------------------------------------------
-- The removal
-- ---------------------------------------------------------------------------

theorem putFwMsgs_releases (bufs : Bufs) : Releases owner (bufs.1.forM putFwMsg) FwMsgRes :=
  (fwMsg_rounds.releases bufs.1 (bufs.2.nodup_iff.mpr List.nodup_range)).congr fun _ =>
    exists_congr fun _ => and_congr_left fun _ => (bufs.2.mem_iff.trans List.mem_range)

theorem unregisterDevices_releases : Releases owner isysUnregisterDevices DeviceRes := by
  have hmedia := (within_eq .v4l2Dev).apart mediaRes_within (by decide)
  have hcsi2 := csi2All_within.apart ((within_eq .v4l2Dev).or mediaRes_within) (by decide)
  have hvideo := videoAll_within.apart (csi2All_within.or ((within_eq .v4l2Dev).or mediaRes_within)) (by decide)
  have media := (releases_put .v4l2Dev).andThen unregisterMedia_releases hmedia
  have subdevices := unregisterSubdevices_releases.andThen media hcsi2
  refine (unregisterVideoDevices_releases.andThen subdevices hvideo).congr fun r => ?_
  simp only [DeviceRes]
  tauto

theorem releaseFirmware_releases (secureMode : Bool) :
    Releases owner (Prog.when (secureMode = false) do put .pkgDir; put .fwImage) (FirmwareRes secureMode) := by
  cases secureMode with
  | true => exact fun t _ => Owned.add_none t fun r hr => Bool.noConfusion hr.1
  | false =>
    have h := (releases_put .pkgDir).andThen (releases_put .fwImage) fun r hr => hr ▸ Res.noConfusion
    exact h.congr fun r => (and_iff_right rfl).symm

theorem destroyOnRemove_releases :
    Releases owner (do destroyStreamMutexes; put .streamMutex; put .mutex) MutexRes := by
  have hlast : Releases owner (do put .streamMutex; put .mutex) fun r => r = .streamMutex ∨ r = .mutex :=
    (releases_put _).andThen (releases_put _) fun r hr => hr ▸ Res.noConfusion
  refine (destroyStreamMutexes_releases.andThen hlast fun r hr => ?_).congr fun r => ?_
  · exact fun h => streamMutexRes_others hr h.symm
  · exact or_congr_right or_comm

/-- What is left to be given back once the notifier is gone. -/
def LastRes (secureMode : Bool) (r : Res) : Prop := r = .pmQos ∨ FirmwareRes secureMode r ∨ MutexRes r

theorem isysRemove_meets (bufs : Bufs) (h : Done (ProbeRes secureMode start) t) :
    Prog.Meets owner (isysRemove secureMode bufs.1) t fun _ t' =>
      (∀ r, ¬ t'.held r) ∧ t'.notes.failed = false := by
  obtain ⟨C, hC, hheld, hfailed⟩ := h
  have hmutex := (firmwareRes_within secureMode).apart mutexRes_within (by decide)
  have hfirmware := (firmwareRes_within secureMode).or mutexRes_within
  have hqos := (within_eq .pmQos).apart hfirmware (by decide)
  have last : Releases owner _ (LastRes secureMode) := (releases_put .pmQos).andThen
    ((releaseFirmware_releases secureMode).andThen destroyOnRemove_releases hmutex) hqos
  have hlast : Within (LastRes secureMode) _ := (within_eq .pmQos).or hfirmware
  have hconn : Within C [.connection] := fun r hr => isConnection_part.mp (hC r hr) ▸ List.mem_singleton_self _
  have hrest := hlast.or (hconn.or (within_eq .notifier))
  let base : Owned Res Notes := ⟨fun r => LastRes secureMode r ∨ C r ∨ r = .notifier, t.notes⟩
  have hsplit : t = (base.add DeviceRes).add FwMsgRes := by
    refine owned_eq (fun r => ?_) rfl
    rw [hheld, probeRes_held]
    show (False ∨ _) ∨ _ ↔ ((LastRes secureMode r ∨ _) ∨ _) ∨ _
    unfold LastRes
    tauto
  have hdevices : Owned.Free DeviceRes base := deviceRes_within.apart hrest (by decide)
  have hmsgs : Owned.Free FwMsgRes (base.add DeviceRes) :=
    fwMsgRes_within.apart (hrest.or deviceRes_within) (by decide)
  unfold isysRemove
  rw [Prog.meets_bind, hsplit]
  refine (putFwMsgs_releases bufs _ hmsgs).imp fun _ t' heq => ?_
  rw [heq, Prog.meets_bind]
  refine (unregisterDevices_releases _ hdevices).imp fun _ t' heq => ?_
  rw [heq, Prog.meets_bind]
  have hnotifier : Owned.Free NotifierRes (⟨LastRes secureMode, t.notes⟩ : Owned Res Notes) :=
    notifierRes_within.apart hlast (by decide)
  refine (notifierCleanup_meets hnotifier (fun _ => Iff.rfl) hC).imp fun _ u hu => ?_
  have hu' : u = (⟨fun _ => False, u.notes⟩ : Owned Res Notes).add (LastRes secureMode) :=
    owned_eq (fun r => (hu.1 r).trans (iff_of_eq (false_or _)).symm) rfl
  rw [hu']
  refine (last _ fun _ _ => id).imp fun _ u' heq => ?_
  rw [heq]
  exact ⟨fun _ => id, hu.2.trans hfailed⟩

-- ---------------------------------------------------------------------------
-- The life of the input system
-- ---------------------------------------------------------------------------

theorem life_meets (busReadyToProbe secureMode : Bool) (bufs : Bufs) :
    Prog.Meets owner (life busReadyToProbe secureMode bufs) start fun _ t =>
      (∃ r, t.held r) ↔ t.notes.failed = true ∧ t.notes.added = true := by
  unfold life
  rw [Prog.meets_bind]
  refine (isysProbe_ends busReadyToProbe secureMode).imp fun ret t ht => ?_
  cases ret with
  | some e =>
    obtain ⟨C, -, hheld, hleft⟩ := ht
    have hC : (∃ r, t.held r) ↔ ∃ r, C r := exists_congr fun r => (hheld r).trans (iff_of_eq (false_or _))
    exact hC.trans (hleft rfl)
  | none =>
    show Prog.Meets owner (isysRemove secureMode bufs.1 >>= fun _ => pure none) t _
    rw [Prog.meets_bind]
    refine (isysRemove_meets bufs ht).imp fun _ t' ht' => ?_
    refine iff_of_false (fun ⟨r, hr⟩ => ht'.1 r hr) fun h => ?_
    rw [ht'.2] at h
    exact Bool.noConfusion h.1

/-- Whatever the calls answer, nothing is got twice and nothing given back that is not
held, and in the end something is held only if the notifier stopped at an endpoint with
one connection added before. -/
theorem isys_life (M : Machine Call.Ans σ) (s : σ) (busReadyToProbe secureMode : Bool) (bufs : Bufs) :
    let log := (life busReadyToProbe secureMode bufs).log M s
    Trace.EndsIn owner start log fun t =>
      (∃ r, t.held r) ↔ log.any endpointFails = true ∧ log.any connectionAdded = true := by
  intro log
  obtain ⟨hclean, hend⟩ := (life_meets busReadyToProbe secureMode bufs).run M s
  refine ⟨hclean, hend.trans ?_⟩
  rw [notes_after]
  simp [start, log]

end Ipu4.IsysProbe
