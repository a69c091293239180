import Ipu4.Buttress.Control
import Ipu4.Qemu.Latches

/-!
# The driver's buttress code on the QEMU model

The register programs of the buttress run on the register space of the QEMU model. In
whatever order the driver calls them, and whatever else goes on in the BAR between the
calls, none of them waits in vain, and the device follows a machine with three facts in
its state: whether each island has power, and which interrupts are enabled.
-/

namespace Ipu4.Qemu

open Buttress

/-- The device and guest memory. `clock` is the virtual clock, and `rest` is what the
kernel answers to the calls that are not accesses to registers. -/
def buttressMachine (clock : Nat) (rest : (e : Call) → e.Ans) : Machine Call.Ans (Device × Memory) where
  step
    | .readl addr, s => ((ipu4MmioRead clock s.1 addr).2, (ipu4MmioRead clock s.1 addr).1, s.2)
    | .writel val addr, s =>
      ((), (ipu4MmioWrite s.2 s.1 addr val).1, (ipu4MmioWrite s.2 s.1 addr val).2.mem)
    | e, s => (rest e, s)

section
variable {clock : Nat} {rest : (e : Call) → e.Ans} {d : Device} {m : Memory} {r : Reg}

/-- The registers whose writes are seen in the islands, in the enabled interrupts or in the
dialogue with the CSE. -/
def islandRegs : List Reg := [.isFreqCtl, .psFreqCtl, .isrEnable, .securityCtl, .iu2cseCsr, .cse2iuCsr]

/-- What the kernel makes the driver do, and writes of others elsewhere in the BAR. The
numbers are the patience of the polls. Where the authentication has the PCI device resumed,
that is an operation of its own before it. -/
inductive ButtressOp
  | init
  | isysPower (polls : Nat) (on : Bool)
  | psysPower (polls : Nat) (on : Bool)
  | startTscSync (polls : Nat → Nat)
  | authenticate (polls : AuthPolls)
  | resetAuthentication (polls : Nat)
  | runtimeResume
  | resume (bus : BusPolls) (polls : AuthPolls)
  | resetDone (polls : Nat)
  | exit
  | other (addr val : Nat) (elsewhere : ∀ r, decode addr = .reg r → r ∉ islandRegs)

/-- An operation, the time, and what the kernel answers during it. -/
structure ButtressEvent where
  op : ButtressOp
  clock : Nat
  rest : (e : Call) → e.Ans

/-- The driver, the device and guest memory. -/
structure Session where
  drv : Drv
  dev : Device
  mem : Memory

/-- The program of an operation, with the state of the driver after it. -/
def ButtressOp.code (isp : Isp) (drv : Drv) : ButtressOp → Code (Int × Drv)
  | .init => ipu6ButtressInit drv
  | .isysPower polls on => (·, drv) <$> ipu6ButtressPower polls (some ipu4IsysButtressCtrl) on
  | .psysPower polls on => (·, drv) <$> ipu6ButtressPower polls (some ipu4PsysButtressCtrl) on
  | .startTscSync polls => (·, drv) <$> ipu6ButtressStartTscSync polls
  | .authenticate polls =>
    (·, drv) <$> ipu6ButtressAuthenticate { isp with secureMode := drv.secureMode } polls
  | .resetAuthentication polls => (·, drv) <$> ipu6ButtressResetAuthentication polls drv.secureMode
  | .runtimeResume => ipu6RuntimeResume drv
  | .resume bus polls => ipu6Resume isp bus polls drv
  | .resetDone polls => ipu6PciResetDone polls drv
  | .exit => (fun _ => (0, drv)) <$> ipu6ButtressExit
  | .other addr val _ => (fun _ => (0, drv)) <$> writel val addr

/-- An operation and what it returns. -/
def Session.step (isp : Isp) (s : Session) (ev : ButtressEvent) : Session × Int :=
  let r := (ev.op.code isp s.drv).run (buttressMachine ev.clock ev.rest) (s.dev, s.mem)
  (⟨r.1.2, r.2.1, r.2.2⟩, r.1.1)

/-- What the session is about: the power of the two islands and the enabled interrupts. -/
structure Islands where
  isys : Bool
  psys : Bool
  irqs : Nat
  deriving DecidableEq, Repr

/-- The bus leaves the island of the processing system on if its driver resumes. -/
def Islands.resumePsys (x : Islands) (rest : (e : Call) → e.Ans) : Islands :=
  match rest (.rpmResume .psys) with
  | .answers _ => x
  | .callsBus => { x with psys := rest (.pmGenericRuntimeResume .psys) = (0 : Int) }

def Islands.step (x : Islands) (ev : ButtressEvent) : Islands :=
  match ev.op with
  | .isysPower _ on => { x with isys := on }
  | .psysPower _ on => { x with psys := on }
  | .init | .runtimeResume | .resetDone _ => { x with irqs := BUTTRESS_IRQS }
  | .resume .. => { x with irqs := BUTTRESS_IRQS }.resumePsys ev.rest
  | .exit => { x with irqs := 0 }
  | .startTscSync _ | .authenticate _ | .resetAuthentication _ | .other .. => x

/-- What stays as it is in every session: the firmware is authenticated, and the
control register of the CSE has 32 bits. -/
structure Sound (d : Device) : Prop where
  securityCtl : d.securityCtl = 0x37002
  csr : d.cse2iuCsr < 2 ^ 32

section
variable {clock : Nat} {rest : (e : Call) → e.Ans} {d : Device} {m : Memory}

/-- What a program of the driver does on a device: it leaves guest memory alone and the
device sound, and `Q` holds of what it returns and of the device. -/
def Leads (clock : Nat) (rest : (e : Call) → e.Ans) (p : Code α) (d : Device) (Q : α → Device → Prop) : Prop :=
  ∀ m, ∃ a d', p.run (buttressMachine clock rest) (d, m) = (a, d', m) ∧ Sound d' ∧ Q a d'

section
variable {α β : Type} {p : Code α} {Q Q' : α → Device → Prop}

theorem Leads.imp (h : Leads clock rest p d Q) (hq : ∀ a d', Q a d' → Q' a d') : Leads clock rest p d Q' := by
  intro m
  obtain ⟨a, d', hrun, hs, hQ⟩ := h m
  exact ⟨a, d', hrun, hs, hq a d' hQ⟩

theorem Leads.bind {f : α → Code β} {R : β → Device → Prop} (h : Leads clock rest p d Q)
    (hf : ∀ a d', Sound d' → Q a d' → Leads clock rest (f a) d' R) : Leads clock rest (p >>= f) d R := by
  intro m
  obtain ⟨a, d', hrun, hs, hQ⟩ := h m
  rw [Prog.run_bind, hrun]
  exact hf a d' hs hQ m

end

end

-- ---------------------------------------------------------------------------
-- Runs
-- ---------------------------------------------------------------------------

/-- What an operation returns: 0, but that an authentication hands on that the power
management has refused. -/
def ButtressEvent.Returns (ev : ButtressEvent) (ret : Int) : Prop :=
  ret = 0 ∨ (∃ polls, ev.op = .authenticate polls) ∧ ret < 0 ∧ ret = ev.rest .pmResumeAndGet

/-- A session, with what each operation returned. -/
def Session.runs (isp : Isp) : Session → List ButtressEvent → Session × List Int
  | s, [] => (s, [])
  | s, ev :: evs =>
    let (s, ret) := s.step isp ev
    let (s, rets) := s.runs isp evs
    (s, ret :: rets)

end

end Ipu4.Qemu
