import Mathlib.Logic.Basic
import TcpEngine.Proofs.Fields

/-!
# Writing the fields of a segment

Every octet of a segment belongs to one field at most (`Segment.Field.at?`). Reading a field looks
at its own octets only (`Segment.Field.get_congr`), and writing it leaves all others as they are,
but for the reserved octet behind the flags (`Segment.Field.getElem?_set`). So whatever fields are
written, in whatever order and how often, each of them holds what was written into it last.

* `Segment.Field`: the fields as data, with what they hold, how they are read and written, and where
  they lie.
* `Segment.Write`: writing a value into a field; `Segment.writeAll`: doing so again and again.
* `Segment.Written`: what is known of a buffer after some writes.
* `Segment.fields_independent`: this is what every sequence of writes leaves.
-/

namespace TcpEngine

namespace Segment

variable {b b' : Octets}

/-! ## Fields -/

/-- The parts of a segment that are read and written each by itself. -/
inductive Field where
  | srcPort
  | dstPort
  | seqNumber
  | ackNumber
  | flags
  | window
  | checksum
  | urgent
  | payload
deriving DecidableEq, Repr

namespace Field

/-- What a field holds. -/
abbrev Value : Field → Type
  | seqNumber | ackNumber => SeqNumber
  | flags => Flags
  | payload => Octets
  | srcPort | dstPort | window | checksum | urgent => UInt16

/-- What a field of a buffer holds. -/
def get (b : Octets) : (f : Field) → Checked f.Value
  | srcPort => Segment.srcPort b
  | dstPort => Segment.dstPort b
  | seqNumber => Segment.seqNumber b
  | ackNumber => Segment.ackNumber b
  | flags => Segment.flags b
  | window => Segment.window b
  | checksum => Segment.checksum b
  | urgent => Segment.urgent b
  | payload => Segment.payload b

/-- The buffer with a value in a field. -/
def set (b : Octets) : (f : Field) → f.Value → Checked Octets
  | srcPort, v => setSrcPort b v
  | dstPort, v => setDstPort b v
  | seqNumber, v => setSeqNumber b v
  | ackNumber, v => setAckNumber b v
  | flags, v => setFlags b v
  | window, v => setWindow b v
  | checksum, v => setChecksum b v
  | urgent, v => setUrgent b v
  | payload, v => setPayload b v

/-- The value is one for the field of the buffer `b`: a payload fills the room behind the header. -/
def Fits (b : Octets) : (f : Field) → f.Value → Prop
  | payload, v => headerLen + List.length v = b.length
  | _, _ => True

/-- The position of the reserved octet. -/
def reserved : Nat := 13

/-- The field to which the octet at a position belongs. The reserved octet belongs to none. -/
def at? (i : Nat) : Option Field :=
  if i < 2 then some srcPort
  else if i < 4 then some dstPort
  else if i < 8 then some seqNumber
  else if i < 12 then some ackNumber
  else if i < reserved then some flags
  else if i = reserved then none
  else if i < 16 then some window
  else if i < 18 then some checksum
  else if i < headerLen then some urgent
  else some payload

/-- The first position of a field. -/
def start : Field → Nat
  | srcPort => 0
  | dstPort => 2
  | seqNumber => 4
  | ackNumber => 8
  | flags => 12
  | window => 14
  | checksum => 16
  | urgent => 18
  | payload => headerLen

/-- The octets that are written for a value, with a zero for the reserved octet behind the flags. -/
def octets : (f : Field) → f.Value → Octets
  | seqNumber, v | ackNumber, v => Octets.ofUInt32 v.value
  | flags, v => [v.bits, 0]
  | payload, v => v
  | srcPort, v | dstPort, v | window, v | checksum, v | urgent, v => Octets.ofUInt16 v

variable {f g : Field} {v : f.Value}

/-- Writing a field is writing its octets at its position. -/
theorem set_eq (hb : headerLen ≤ b.length) (hv : f.Fits b v) :
    f.set b v = Octets.write b f.start (f.octets v) := by
  cases f with
  | payload =>
    have hv : headerLen + List.length v = b.length := hv
    have hroom : (b.drop headerLen).length = List.length v := by
      rw [List.length_drop]
      omega
    show setPayload b v = Octets.write b headerLen v
    unfold setPayload Octets.split Octets.copy Octets.write
    rw [if_pos hb, Except.ok_bind]
    dsimp only
    rw [if_pos hroom, if_pos (Nat.le_of_eq hv), hv, List.drop_length, List.append_nil]
    rfl
  | _ => rfl

theorem start_add_le (hb : headerLen ≤ b.length) (hv : f.Fits b v) :
    f.start + (f.octets v).length ≤ b.length := by
  have hlen : 20 ≤ b.length := hb
  cases f with
  | payload => exact Nat.le_of_eq hv
  | _ =>
    simp only [start, octets, Octets.length_ofUInt16, Octets.length_ofUInt32, List.length_cons,
      List.length_nil]
    omega

/-- A value that fits is written without a fault. -/
theorem exists_set (hb : headerLen ≤ b.length) (hv : f.Fits b v) : ∃ b', f.set b v = .ok b' := by
  rw [set_eq hb hv]
  exact ⟨_, if_pos (start_add_le hb hv)⟩

/-- Only octets of the field are written, and with the flags the reserved one. -/
theorem at?_written {i : Nat} (hi : f.start ≤ i) (hlt : i < f.start + (f.octets v).length)
    (hne : at? i ≠ some f) : f = flags ∧ i = reserved := by
  -- The table gives the field all of these positions, but for the second one of the flags.
  unfold at? reserved headerLen at *
  cases f with
  | payload =>
    have hi : 20 ≤ i := hi
    grind
  | _ =>
    simp only [start, octets, Octets.length_ofUInt16, Octets.length_ofUInt32, List.length_cons,
      List.length_nil] at hi hlt
    grind

/-- What stands at the position of a field is read. A payload is all that stands there. -/
theorem get_of_drop {r : Octets} (hb : headerLen ≤ b.length)
    (h : b.drop f.start = f.octets v ++ r) (hr : f = payload → r = []) : f.get b = .ok v := by
  cases f with
  | seqNumber | ackNumber => exact congrArg (SeqNumber.mk <$> ·) (Octets.read32_of_drop h)
  | flags => exact congrArg (Flags.mk <$> ·) (Octets.read8_of_drop h)
  | payload =>
    rw [hr rfl, List.append_nil] at h
    have h : b.drop headerLen = v := h
    show Segment.payload b = .ok v
    unfold Segment.payload Octets.split
    rw [if_pos hb, h]
    rfl
  | srcPort | dstPort | window | checksum | urgent => exact Octets.read16_of_drop h

theorem length_set (hb : headerLen ≤ b.length) (hv : f.Fits b v) (h : f.set b v = .ok b') :
    b'.length = b.length := by
  rw [set_eq hb hv] at h
  exact Octets.length_write h

/-- A field holds what was written into it. -/
theorem get_set (hb : headerLen ≤ b.length) (hv : f.Fits b v) (h : f.set b v = .ok b') :
    f.get b' = .ok v := by
  rw [set_eq hb hv] at h
  have hlen := Octets.length_write h
  refine get_of_drop (by omega) (Octets.drop_write_self h) ?_
  rintro rfl
  exact List.drop_of_length_le (Nat.le_of_eq hv.symm)

/-- What is read from a field depends on its own octets. -/
theorem get_congr (hlen : b'.length = b.length) (h : ∀ i, at? i = some f → b'[i]? = b[i]?) :
    f.get b' = f.get b := by
  unfold at? reserved headerLen at h
  cases f with
  | seqNumber | ackNumber =>
    refine congrArg (SeqNumber.mk <$> ·) (Octets.read32_congr fun j hle hlt => h j ?_)
    grind
  | flags => exact congrArg (Flags.mk <$> ·) (Octets.read8_congr fun j hle hlt => h j (by grind))
  | payload =>
    have hdrop : b'.drop headerLen = b.drop headerLen := by
      apply List.ext_getElem?
      intro j
      rw [List.getElem?_drop, List.getElem?_drop]
      refine h (headerLen + j) ?_
      unfold headerLen
      grind
    show Segment.payload b' = Segment.payload b
    unfold Segment.payload Octets.split
    rw [hlen, hdrop]
    split <;> rfl
  | srcPort | dstPort | window | checksum | urgent =>
    refine Octets.read16_congr fun j hle hlt => h j ?_
    grind

/-- Octets that do not belong to the field stay as they are, but for the reserved one. -/
theorem getElem?_set (hb : headerLen ≤ b.length) (hv : f.Fits b v) (h : f.set b v = .ok b')
    {i : Nat} (hi : at? i ≠ some f) :
    b'[i]? = if i = reserved ∧ f = flags then some 0 else b[i]? := by
  rw [set_eq hb hv] at h
  rw [Octets.getElem?_write h]
  by_cases hwritten : f.start ≤ i ∧ i < f.start + (f.octets v).length
  · obtain ⟨rfl, rfl⟩ := at?_written hwritten.1 hwritten.2 hi
    rfl
  · rw [if_neg hwritten, if_neg]
    rintro ⟨rfl, rfl⟩
    exact hwritten ⟨Nat.le_succ 12, Nat.lt_succ_self 13⟩

/-- Another field holds what it held. -/
theorem get_set_other (hb : headerLen ≤ b.length) (hv : f.Fits b v) (h : f.set b v = .ok b')
    (hne : g ≠ f) : g.get b' = g.get b := by
  refine get_congr (length_set hb hv h) fun i hi => ?_
  have hother : at? i ≠ some f := by
    rw [hi]
    exact fun he => hne (Option.some.inj he)
  rw [getElem?_set hb hv h hother, if_neg]
  -- The reserved octet does not belong to the other field either.
  rintro ⟨rfl, -⟩
  cases hi

/-- Every field can be read. -/
theorem exists_get (hb : headerLen ≤ b.length) (f : Field) : ∃ v, f.get b = .ok v := by
  have hlen : 20 ≤ b.length := hb
  have read32 {i : Nat} (hi : i ≤ 16) : ∃ s, SeqNumber.mk <$> Octets.read32 b i = .ok s := by
    obtain ⟨w, hw⟩ := Octets.exists_read32 (b := b) (i := i) (by omega)
    exact ⟨⟨w⟩, congrArg (SeqNumber.mk <$> ·) hw⟩
  have read16 {i : Nat} (hi : i ≤ 18) : ∃ w, Octets.read16 b i = .ok w :=
    Octets.exists_read16 (by omega)
  cases f with
  | srcPort => exact read16 (i := 0) (by decide)
  | dstPort => exact read16 (i := 2) (by decide)
  | seqNumber => exact read32 (i := 4) (by decide)
  | ackNumber => exact read32 (i := 8) (by decide)
  | flags =>
    obtain ⟨x, hx⟩ := Octets.exists_read8 (b := b) (i := 12) (by omega)
    exact ⟨⟨x⟩, congrArg (Flags.mk <$> ·) hx⟩
  | window => exact read16 (i := 14) (by decide)
  | checksum => exact read16 (i := 16) (by decide)
  | urgent => exact read16 (i := 18) (by decide)
  | payload => exact ⟨b.drop headerLen, congrArg (Prod.snd <$> ·) (if_pos hb)⟩

end Field

/-! ## Sequences of writes -/

/-- A field and a value to be written into it. -/
structure Write where
  field : Field
  value : field.Value

namespace Write

/-- The value is one for the field of the buffer `b`. -/
def Fits (b : Octets) (w : Write) : Prop := w.field.Fits b w.value

/-- The buffer with the value in the field. -/
def apply (b : Octets) (w : Write) : Checked Octets := w.field.set b w.value

/-- The value, if it is written into the field `f`. -/
def value? (w : Write) (f : Field) : Option f.Value :=
  if h : w.field = f then some (h ▸ w.value) else none

theorem Fits.congr {w : Write} (h : w.Fits b) (hlen : b'.length = b.length) : w.Fits b' := by
  obtain ⟨f, v⟩ := w
  cases f with
  | payload => exact Eq.trans h hlen.symm
  | _ => trivial

end Write

/-- The buffer after all writes, one after the other. -/
def writeAll (b : Octets) (ws : List Write) : Checked Octets := ws.foldlM Write.apply b

/-- The value that was written into the field `f` last, if there is one. -/
def last? (f : Field) : List Write → Option f.Value
  | [] => none
  | w :: ws => (last? f ws).or (w.value? f)

theorem last?_append (f : Field) (ws ws' : List Write) :
    last? f (ws ++ ws') = (last? f ws').or (last? f ws) := by
  induction ws with
  | nil => exact (Option.or_none ..).symm
  | cons w ws ih => rw [List.cons_append, last?, ih, Option.or_assoc, last?]

/-- What is known of the buffer that writes have made of `b`. -/
structure Written (b : Octets) (ws : List Write) (b' : Octets) : Prop where
  length : b'.length = b.length
  get : ∀ f v, Field.get b f = .ok v → Field.get b' f = .ok ((last? f ws).getD v)
  rest : ∀ i, (∀ w ∈ ws, Field.at? i ≠ some w.field) →
    b'[i]? = if i = Field.reserved ∧ ∃ w ∈ ws, w.field = .flags then some 0 else b[i]?

namespace Written

variable {b₁ : Octets} {w : Write} {ws ws' : List Write}

theorem nil : Written b [] b := ⟨rfl, fun _ _ h => h, fun _ _ => by simp⟩

theorem single (hb : headerLen ≤ b.length) (hw : w.Fits b) (h : w.apply b = .ok b') :
    Written b [w] b' := by
  refine ⟨Field.length_set hb hw h, fun f v hv => ?_, fun i hi => ?_⟩
  · show Field.get b' f = .ok ((w.value? f).getD v)
    unfold Write.value?
    split
    · rename_i hf
      subst hf
      exact Field.get_set hb hw h
    · rename_i hf
      rw [Field.get_set_other hb hw h (Ne.symm hf)]
      exact hv
  · rw [Field.getElem?_set hb hw h (hi w List.mem_cons_self)]
    simp

theorem append (h : Written b ws b₁) (h' : Written b₁ ws' b') : Written b (ws ++ ws') b' := by
  refine ⟨h'.length.trans h.length, fun f v hv => ?_, fun i hi => ?_⟩
  · rw [h'.get f _ (h.get f v hv), last?_append]
    cases last? f ws' <;> rfl
  · have hflags : (i = Field.reserved ∧ ∃ w ∈ ws ++ ws', w.field = .flags) ↔
        (i = Field.reserved ∧ ∃ w ∈ ws', w.field = .flags) ∨
          i = Field.reserved ∧ ∃ w ∈ ws, w.field = .flags := by
      simp only [List.mem_append, or_and_right, exists_or, and_or_left]
      exact or_comm
    rw [h'.rest i fun w hw => hi w (List.mem_append_right _ hw),
      h.rest i fun w hw => hi w (List.mem_append_left _ hw)]
    exact (ite_or ..).symm.trans (if_congr hflags.symm rfl rfl)

end Written

theorem Write.apply_written {w : Write} (hb : headerLen ≤ b.length) (hw : w.Fits b) :
    ∃ b', w.apply b = .ok b' ∧ Written b [w] b' := by
  obtain ⟨b', h⟩ := Field.exists_set hb hw
  exact ⟨b', h, .single hb hw h⟩

theorem writeAll_written {ws : List Write} (hb : headerLen ≤ b.length) (hws : ∀ w ∈ ws, w.Fits b) :
    ∃ b', writeAll b ws = .ok b' ∧ Written b ws b' := by
  induction ws generalizing b with
  | nil => exact ⟨b, rfl, .nil⟩
  | cons w ws ih =>
    obtain ⟨b₁, h₁, hw⟩ := Write.apply_written hb (hws w List.mem_cons_self)
    obtain ⟨b', h', hwritten⟩ := ih (hw.length ▸ hb) fun v hv =>
      (hws v (List.mem_cons_of_mem _ hv)).congr hw.length
    refine ⟨b', ?_, hw.append hwritten⟩
    rw [writeAll, List.foldlM_cons, h₁]
    exact h'

/-- Values are written into the fields of a buffer one after the other. No write faults, the length
stays, and every field can be read before and after. It then holds the value that was written into
it last, or what it held before if none was. The octets that belong to no field into which something
was written stay as they are, but for the reserved one, which is 0 once flags were written. -/
theorem fields_independent (b : Octets) (ws : List Write) (hb : headerLen ≤ b.length)
    (hws : ∀ w ∈ ws, w.Fits b) :
    ∃ b', writeAll b ws = .ok b' ∧ b'.length = b.length ∧
      (∀ f : Field, ∃ v, f.get b = .ok v ∧ f.get b' = .ok ((last? f ws).getD v)) ∧
      ∀ i, (∀ w ∈ ws, Field.at? i ≠ some w.field) →
        b'[i]? = if i = Field.reserved ∧ ∃ w ∈ ws, w.field = .flags then some 0 else b[i]? := by
  obtain ⟨b', h, hwritten⟩ := writeAll_written hb hws
  refine ⟨b', h, hwritten.length, fun f => ?_, hwritten.rest⟩
  obtain ⟨v, hv⟩ := Field.exists_get hb f
  exact ⟨v, hv, hwritten.get f v hv⟩

/-- The flags are written twice, and other fields in between. -/
theorem fields_independent_twice : ∃ (b b' : Octets) (ws : List Write),
    b = List.replicate 24 0xee ∧
    ws = [⟨.flags, Flags.SYN⟩, ⟨.seqNumber, ⟨7⟩⟩, ⟨.payload, [1, 2, 3, 4]⟩, ⟨.flags, Flags.ACK⟩] ∧
    headerLen ≤ b.length ∧ (∀ w ∈ ws, w.Fits b) ∧ writeAll b ws = .ok b' ∧
    flags b' = .ok Flags.ACK ∧ payload b' = .ok [1, 2, 3, 4] ∧ srcPort b' = .ok 0xeeee ∧
    (∀ w ∈ ws, Field.at? 13 ≠ some w.field) ∧ b'[13]? = some 0 ∧
    (∀ w ∈ ws, Field.at? 14 ≠ some w.field) ∧ b'[14]? = some 0xee := by
  obtain ⟨b, hb⟩ : ∃ b : Octets, b = List.replicate 24 0xee := ⟨_, rfl⟩
  obtain ⟨ws, hws⟩ : ∃ ws : List Write, ws =
    [⟨.flags, Flags.SYN⟩, ⟨.seqNumber, ⟨7⟩⟩, ⟨.payload, [1, 2, 3, 4]⟩, ⟨.flags, Flags.ACK⟩] :=
    ⟨_, rfl⟩
  have hmin : headerLen ≤ b.length := by subst hb; decide
  have hfits : ∀ w ∈ ws, w.Fits b := by subst hb hws; simp [Write.Fits, Field.Fits, headerLen]
  have h13 : ∀ w ∈ ws, Field.at? 13 ≠ some w.field := by subst hws; decide
  have h14 : ∀ w ∈ ws, Field.at? 14 ≠ some w.field := by subst hws; decide
  obtain ⟨b', h, -, hget, hrest⟩ := fields_independent b ws hmin hfits
  obtain ⟨_, -, hflags⟩ := hget .flags
  obtain ⟨_, -, hpayload⟩ := hget .payload
  obtain ⟨_, hold, hport⟩ := hget .srcPort
  have hreserved := hrest 13 h13
  have hwindow := hrest 14 h14
  subst hb hws
  cases hold
  exact ⟨_, b', _, rfl, rfl, hmin, hfits, h, hflags, hpayload, hport, h13, hreserved, h14, hwindow⟩

end Segment

end TcpEngine
