import TwoWire.LineDriver

/-! Half-duplex discipline over hardware that may fail at any call. The calls are traced:
a driver writes only while the last control signal that came through enabled its
transmitter, and after a transmission it has tried to take that signal back. -/

namespace TwoWire

/-- A call of the hardware with what came of it. -/
inductive PhyCall where
  | connect (result : Except LinkError Unit)
  | drive (on : Bool) (result : Except LinkError Unit)
  | write (bytes : List UInt8) (result : Except LinkError Unit)
  | release (result : Except LinkError Unit)

namespace PhyCall

def result : PhyCall → Except LinkError Unit
  | connect result | drive _ result | write _ result | release result => result

/-- The first failure among some calls. -/
def earliest : List PhyCall → Except LinkError Unit
  | [] => .ok ()
  | call :: rest => do
    call.result
    earliest rest

def driven? : PhyCall → Option Bool
  | drive on (.ok ()) => some on
  | _ => none

/-- The last control signal that came through. -/
def driven (calls : List PhyCall) : Option Bool :=
  (calls.filterMap driven?).getLast?

theorem driven_concat (calls : List PhyCall) (call : PhyCall) :
    driven (calls ++ [call]) = call.driven?.or (driven calls) := by
  rw [driven, driven, List.filterMap_append]
  cases h : call.driven? <;> simp [h]

/-- Bytes are written only while the transmitter was last enabled. -/
def Guarded (calls : List PhyCall) : Prop :=
  ∀ before bytes result after, calls = before ++ write bytes result :: after →
    driven before = some true

theorem Guarded.nil : Guarded [] := by
  intro before bytes result after heq
  simp at heq

theorem Guarded.concat {calls : List PhyCall} (h : Guarded calls) {call : PhyCall}
    (last : ∀ bytes result, call = write bytes result → driven calls = some true) :
    Guarded (calls ++ [call]) := by
  intro before bytes result after heq
  rcases after.eq_nil_or_concat with rfl | ⟨after, x, rfl⟩
  · obtain ⟨rfl, hcall⟩ := List.append_inj' heq rfl
    exact last bytes result (List.cons.inj hcall).1
  · rw [List.concat_eq_append, ← List.cons_append, ← List.append_assoc] at heq
    exact h before bytes result after (List.append_inj' heq rfl).1

end PhyCall

structure Traced (ρ : Type) where
  hardware : ρ
  calls : List PhyCall := []

variable {ρ : Type}

def Traced.noted (label : Except LinkError Unit → PhyCall) (called : Except LinkError Unit × ρ)
    (t : Traced ρ) : Except LinkError Unit × Traced ρ :=
  (called.1, ⟨called.2, t.calls ++ [label called.1]⟩)

/-- A driver of traced hardware without the trace. -/
def LineDriver.untraced (d : LineDriver (Traced ρ)) : LineDriver ρ :=
  ⟨d.transmitting, d.hardware.hardware⟩

inductive DriverCall where
  | setTransmitting (on : Bool)
  | transmit (bytes : List UInt8)
  | put (bytes : List UInt8)

namespace Phy

def traced (p : Phy ρ) : Phy (Traced ρ) where
  connect buffer t := t.noted .connect (p.connect buffer t.hardware)
  drive on t := t.noted (.drive on) (p.drive on t.hardware)
  write bytes t := t.noted (.write bytes) (p.write bytes t.hardware)
  release t := t.noted .release (p.release t.hardware)
  buffer := ⟨fun t => p.buffer.get t.hardware, fun q t => { t with hardware := p.buffer.set q t.hardware }⟩

def perform (p : Phy ρ) : DriverCall → LineDriver ρ → Except LinkError Unit × LineDriver ρ
  | .setTransmitting on => p.setTransmitting on
  | .transmit bytes => p.transmit bytes
  | .put bytes => p.put bytes

def performAll (p : Phy ρ) : List DriverCall → LineDriver ρ →
    List (Except LinkError Unit) × LineDriver ρ
  | [], d => ([], d)
  | call :: rest, d =>
    let (result, d) := p.perform call d
    let (results, d) := p.performAll rest d
    (result :: results, d)

theorem transmit_of_refused {p : Phy ρ} {bytes : List UInt8} (hne : bytes ≠ [])
    {d d' : LineDriver ρ} {cause : LinkError}
    (refused : p.setTransmitting true d = (.error cause, d')) :
    p.transmit bytes d = (.error cause, d') := by
  have he : bytes.isEmpty = false := by simp [hne]
  simp only [transmit, he, Bool.false_eq_true, ↓reduceIte, refused]

theorem transmit_of_enabled {p : Phy ρ} {bytes : List UInt8} (hne : bytes ≠ [])
    {d d' : LineDriver ρ} (enabled : p.setTransmitting true d = (.ok (), d')) :
    let written := p.put bytes d'
    let disabled := p.setTransmitting false written.2
    p.transmit bytes d = (do written.1; disabled.1, disabled.2) := by
  have he : bytes.isEmpty = false := by simp [hne]
  simp only [transmit, he, Bool.false_eq_true, ↓reduceIte, enabled]
  cases (p.put bytes d').1 <;> rfl

theorem setTransmitting_traced (p : Phy ρ) (on : Bool) (d : LineDriver (Traced ρ)) :
    let driven := p.drive on d.hardware.hardware
    p.traced.setTransmitting on d =
      (driven.1, ⟨if driven.1.toBool then on else d.transmitting,
        ⟨driven.2, d.hardware.calls ++ [.drive on driven.1]⟩⟩) := by
  have hdrive : p.traced.drive on d.hardware =
    d.hardware.noted (.drive on) (p.drive on d.hardware.hardware) := rfl
  simp only [setTransmitting, hdrive, Traced.noted]
  generalize p.drive on d.hardware.hardware = driven
  obtain ⟨cause | _, hardware⟩ := driven <;> rfl

theorem put_traced (p : Phy ρ) (bytes : List UInt8) {d : LineDriver (Traced ρ)}
    (on : d.transmitting = true) :
    let written := p.write bytes d.hardware.hardware
    p.traced.put bytes d =
      (written.1, ⟨true, ⟨written.2, d.hardware.calls ++ [.write bytes written.1]⟩⟩) := by
  have hwrite : p.traced.write bytes d.hardware =
    d.hardware.noted (.write bytes) (p.write bytes d.hardware.hardware) := rfl
  simp only [put, on, ↓reduceIte, hwrite, Traced.noted]

/-- Either the transmitter is not enabled and nothing else is tried, or there is one write
of everything and then an attempt to disable the transmitter again. -/
theorem transmit_traced (p : Phy ρ) {bytes : List UInt8} (hne : bytes ≠ [])
    (d : LineDriver (Traced ρ)) :
    let transmitted := p.traced.transmit bytes d
    ∃ added, transmitted.2.hardware.calls = d.hardware.calls ++ added ∧
      transmitted.1 = PhyCall.earliest added ∧
      ((∃ cause, added = [.drive true (.error cause)] ∧
          transmitted.2.transmitting = d.transmitting) ∨
        ∃ written disabled,
          added = [.drive true (.ok ()), .write bytes written, .drive false disabled] ∧
          transmitted.2.transmitting = !disabled.toBool) := by
  have henabled := p.setTransmitting_traced true d
  generalize p.drive true d.hardware.hardware = enabled at henabled
  obtain ⟨cause | _, hardware⟩ := enabled
  · rw [transmit_of_refused hne henabled]
    exact ⟨_, rfl, rfl, .inl ⟨cause, rfl, rfl⟩⟩
  · -- Disabling is tried whatever comes of the write; only the result depends on that.
    rw [transmit_of_enabled hne henabled, put_traced p bytes rfl, setTransmitting_traced]
    generalize p.write bytes hardware = written
    generalize p.drive false written.2 = disabled
    obtain ⟨disabled, hardware'⟩ := disabled
    refine ⟨[.drive true (.ok ()), .write bytes written.1, .drive false disabled], ?_, ?_,
      .inr ⟨written.1, disabled, rfl, ?_⟩⟩
    · simp
    · cases written.1 <;> cases disabled <;> rfl
    · cases disabled <;> rfl

/-- How starting can end, and the calls that it takes. Hardware that was connected and does
not let its transmitter be disabled is given back, and only then. -/
inductive Started (buffer : ByteQueue) : Except LinkError Unit → List PhyCall → Prop where
  | noBuffer (empty : buffer.capacity = 0) : Started buffer (.error .zeroBuffer) []
  | unconnected (room : buffer.capacity ≠ 0) (cause : LinkError) :
      Started buffer (.error (.connectFailed cause)) [.connect (.error cause)]
  | givenBack (room : buffer.capacity ≠ 0) (cause : LinkError) (released : Except LinkError Unit) :
      Started buffer (.error (.disableFailed cause))
        [.connect (.ok ()), .drive false (.error cause), .release released]
  | ready (room : buffer.capacity ≠ 0) :
      Started buffer (.ok ()) [.connect (.ok ()), .drive false (.ok ())]

theorem setTransmitting_untraced (p : Phy ρ) (on : Bool) (d : LineDriver (Traced ρ)) :
    let traced := p.traced.setTransmitting on d
    p.setTransmitting on d.untraced = (traced.1, traced.2.untraced) := by
  have hset := p.setTransmitting_traced on d
  simp only [hset]
  simp only [setTransmitting, LineDriver.untraced]
  generalize p.drive on d.hardware.hardware = driven
  obtain ⟨cause | _, hardware⟩ := driven <;> rfl

theorem start_traced (p : Phy ρ) (buffer : ByteQueue) (hardware : ρ) :
    let started := p.traced.start buffer ⟨hardware, []⟩
    Started buffer started.1 started.2.hardware.calls ∧
      p.start buffer hardware = (started.1, started.2.untraced) ∧
      (started.1 = .ok () → started.2.transmitting = false) := by
  have hconnect : p.traced.connect buffer ⟨hardware, []⟩ =
    Traced.noted .connect (p.connect buffer hardware) ⟨hardware, []⟩ := rfl
  by_cases hcapacity : buffer.capacity = 0
  · simp only [start, hcapacity, ↓reduceIte]
    exact ⟨.noBuffer hcapacity, rfl, nofun⟩
  · simp only [start, hcapacity, ↓reduceIte, hconnect, Traced.noted]
    generalize p.connect buffer hardware = connected
    obtain ⟨cause | _, hardware⟩ := connected
    · exact ⟨.unconnected hcapacity cause, rfl, nofun⟩
    · have hdisabled := p.setTransmitting_traced false ⟨true, ⟨hardware, [] ++ [.connect (.ok ())]⟩⟩
      have hplain : p.setTransmitting false ⟨true, hardware⟩ = _ :=
        p.setTransmitting_untraced false ⟨true, ⟨hardware, [] ++ [.connect (.ok ())]⟩⟩
      rw [hdisabled] at hplain
      simp only [hdisabled, hplain]
      generalize p.drive false hardware = disabled
      obtain ⟨cause | _, hardware⟩ := disabled
      · exact ⟨.givenBack hcapacity cause (p.release hardware).1, rfl, nofun⟩
      · exact ⟨.ready hcapacity, rfl, fun _ => rfl⟩

theorem put_untraced (p : Phy ρ) (bytes : List UInt8) (d : LineDriver (Traced ρ)) :
    let traced := p.traced.put bytes d
    p.put bytes d.untraced = (traced.1, traced.2.untraced) := by
  cases on : d.transmitting with
  | false => simp only [put, LineDriver.untraced, on, Bool.false_eq_true, ↓reduceIte]
  | true =>
    have hput := p.put_traced bytes on
    simp only [hput]
    simp only [put, LineDriver.untraced, on, ↓reduceIte]

theorem transmit_untraced (p : Phy ρ) (bytes : List UInt8) (d : LineDriver (Traced ρ)) :
    let traced := p.traced.transmit bytes d
    p.transmit bytes d.untraced = (traced.1, traced.2.untraced) := by
  by_cases hne : bytes = []
  · subst hne
    rfl
  · have henabled := p.setTransmitting_untraced true d
    generalize hset : p.traced.setTransmitting true d = enabled at henabled
    obtain ⟨cause | _, d'⟩ := enabled
    · rw [transmit_of_refused hne hset, transmit_of_refused hne henabled]
    · rw [transmit_of_enabled hne hset, transmit_of_enabled hne henabled, put_untraced,
        setTransmitting_untraced]

theorem perform_untraced (p : Phy ρ) (call : DriverCall) (d : LineDriver (Traced ρ)) :
    let traced := p.traced.perform call d
    p.perform call d.untraced = (traced.1, traced.2.untraced) := by
  cases call with
  | setTransmitting on => exact p.setTransmitting_untraced on d
  | transmit bytes => exact p.transmit_untraced bytes d
  | put bytes => exact p.put_untraced bytes d

theorem performAll_untraced (p : Phy ρ) (calls : List DriverCall) (d : LineDriver (Traced ρ)) :
    let traced := p.traced.performAll calls d
    p.performAll calls d.untraced = (traced.1, traced.2.untraced) := by
  induction calls generalizing d with
  | nil => rfl
  | cons call rest ih =>
    have hrest := ih (p.traced.perform call d).2
    simp only [performAll, perform_untraced, hrest]

end Phy

namespace LineDriver

/-- The driver knows what the control line was last told, and has kept to it. -/
structure Disciplined (d : LineDriver (Traced ρ)) : Prop where
  knows : PhyCall.driven d.hardware.calls = some d.transmitting
  guarded : PhyCall.Guarded d.hardware.calls

variable {p : Phy ρ} {d : LineDriver (Traced ρ)}

theorem Disciplined.setTransmitting (h : d.Disciplined) (on : Bool) :
    (p.traced.setTransmitting on d).2.Disciplined := by
  have hset := p.setTransmitting_traced on d
  generalize p.drive on d.hardware.hardware = driven at hset
  obtain ⟨cause | _, hardware⟩ := driven
  · -- A signal that did not come through is in the trace, but the last one stands.
    rw [hset]
    exact ⟨(PhyCall.driven_concat _ _).trans h.knows, h.guarded.concat nofun⟩
  · rw [hset]
    exact ⟨PhyCall.driven_concat _ _, h.guarded.concat nofun⟩

theorem Disciplined.put (h : d.Disciplined) (bytes : List UInt8) :
    (p.traced.put bytes d).2.Disciplined := by
  cases on : d.transmitting with
  | false =>
    simp only [Phy.put, on, Bool.false_eq_true, ↓reduceIte]
    exact h
  | true =>
    have hput := p.put_traced bytes on
    have last := h.knows
    rw [on] at last
    rw [hput]
    exact ⟨(PhyCall.driven_concat _ _).trans last, h.guarded.concat fun _ _ _ => last⟩

theorem Disciplined.transmit (h : d.Disciplined) (bytes : List UInt8) :
    (p.traced.transmit bytes d).2.Disciplined := by
  have henabled := h.setTransmitting (p := p) true
  unfold Phy.transmit
  split
  · exact h
  · split
    · rename_i heq
      rwa [heq] at henabled
    · rename_i heq
      rw [heq] at henabled
      have hdisabled := (henabled.put (p := p) bytes).setTransmitting (p := p) false
      simp only
      split <;> exact hdisabled

theorem Disciplined.perform (h : d.Disciplined) (call : DriverCall) :
    (p.traced.perform call d).2.Disciplined := by
  cases call with
  | setTransmitting on => exact h.setTransmitting on
  | transmit bytes => exact h.transmit bytes
  | put bytes => exact h.put bytes

theorem Disciplined.performAll (h : d.Disciplined) (calls : List DriverCall) :
    (p.traced.performAll calls d).2.Disciplined := by
  induction calls generalizing d with
  | nil => exact h
  | cons call rest ih => exact ih (h.perform call)

end LineDriver

namespace Phy

theorem disciplined_of_started {p : Phy ρ} {buffer : ByteQueue} {hardware : ρ}
    (ok : (p.traced.start buffer ⟨hardware, []⟩).1 = .ok ()) :
    (p.traced.start buffer ⟨hardware, []⟩).2.Disciplined := by
  obtain ⟨hstarted, -, hoff⟩ := p.start_traced buffer hardware
  have hoff := hoff ok
  generalize p.traced.start buffer ⟨hardware, []⟩ = started at *
  obtain ⟨result, transmitting, hardware, calls⟩ := started
  cases ok
  cases hoff
  cases hstarted
  have hconnect : PhyCall.Guarded ([] ++ [.connect (.ok ())]) := .concat .nil nofun
  have hdrive : PhyCall.Guarded ([] ++ [.connect (.ok ())] ++ [.drive false (.ok ())]) :=
    hconnect.concat nofun
  exact ⟨rfl, hdrive⟩

/-- After a successful start, and whatever is asked of the driver then, it knows the last
control signal that came through and writes only under an enabling one; and a transmission
is one write of everything, if the transmitter can be enabled for it, after which the
attempt to disable it is always made. -/
theorem half_duplex (p : Phy ρ) (buffer : ByteQueue) (hardware : ρ) :
    let started := p.traced.start buffer ⟨hardware, []⟩
    Started buffer started.1 started.2.hardware.calls ∧
      p.start buffer hardware = (started.1, started.2.untraced) ∧
      (started.1 = .ok () → started.2.transmitting = false ∧ ∀ calls : List DriverCall,
        let performed := p.traced.performAll calls started.2
        let d := performed.2
        p.performAll calls started.2.untraced = (performed.1, d.untraced) ∧
          PhyCall.driven d.hardware.calls = some d.transmitting ∧
          PhyCall.Guarded d.hardware.calls ∧
          p.traced.transmit [] d = (.error .emptyTransmission, d) ∧
          ∀ bytes, bytes ≠ [] →
            let transmitted := p.traced.transmit bytes d
            ∃ added, transmitted.2.hardware.calls = d.hardware.calls ++ added ∧
              transmitted.1 = PhyCall.earliest added ∧
              ((∃ cause, added = [.drive true (.error cause)] ∧
                  transmitted.2.transmitting = d.transmitting) ∨
                ∃ written disabled,
                  added = [.drive true (.ok ()), .write bytes written, .drive false disabled] ∧
                  transmitted.2.transmitting = !disabled.toBool)) := by
  intro started
  obtain ⟨hstarted, hplain, hoff⟩ := p.start_traced buffer hardware
  refine ⟨hstarted, hplain, fun ok => ⟨hoff ok, fun calls => ?_⟩⟩
  intro performed d
  have hd : d.Disciplined := (disciplined_of_started ok).performAll calls
  refine ⟨p.performAll_untraced calls started.2, hd.knows, hd.guarded, rfl, fun bytes hne => ?_⟩
  exact p.transmit_traced hne d

def answering : Phy (List (Except LinkError Unit)) where
  connect _ answers := (answers.head?.getD (.ok ()), answers.tail)
  drive _ answers := (answers.head?.getD (.ok ()), answers.tail)
  write _ answers := (answers.head?.getD (.ok ()), answers.tail)
  release answers := (answers.head?.getD (.ok ()), answers.tail)
  buffer := ⟨fun _ => { capacity := 0 }, fun _ answers => answers⟩

/-- A transmission fails in writing and leaves the transmitter enabled, so that bytes can be
put until it is disabled; the next one fails only in disabling it. -/
theorem half_duplex_flaky :
    let uart : Except LinkError Unit := .error (.ioLayer "uart")
    let gpio : Except LinkError Unit := .error (.ioLayer "gpio")
    let answers := [.ok (), .ok (), .ok (), uart, gpio, .ok (), .ok (), .ok (), .ok (), gpio]
    let started := answering.traced.start ⟨16, []⟩ ⟨answers, []⟩
    let performed := answering.traced.performAll
      [.transmit [1, 2], .put [3], .setTransmitting false, .put [4]] started.2
    let transmitted := answering.traced.transmit [5] performed.2
    started.1 = .ok () ∧ [(5 : UInt8)] ≠ [] ∧
      performed.1 = [uart, .ok (), .ok (), .error .transmitterOff] ∧
      performed.2.transmitting = false ∧
      PhyCall.driven performed.2.hardware.calls = some false ∧
      (∃ added, transmitted.2.hardware.calls = performed.2.hardware.calls ++ added ∧
        transmitted.1 = PhyCall.earliest added) ∧
      transmitted.1 = gpio ∧ transmitted.2.transmitting = true := by
  intro uart gpio answers started performed transmitted
  have ok : started.1 = .ok () := rfl
  have hne : [(5 : UInt8)] ≠ [] := nofun
  obtain ⟨-, -, hrun⟩ := half_duplex answering ⟨16, []⟩ answers
  obtain ⟨-, hcalls⟩ := hrun ok
  obtain ⟨-, hknows, -, -, htransmit⟩ :=
    hcalls [.transmit [1, 2], .put [3], .setTransmitting false, .put [4]]
  obtain ⟨added, hadded, hresult, -⟩ := htransmit [5] hne
  exact ⟨ok, hne, rfl, rfl, hknows, ⟨added, hadded, hresult⟩, rfl, rfl⟩

end Phy

end TwoWire
