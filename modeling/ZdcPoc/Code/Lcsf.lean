import ZdcPoc.Code.Protocol

/-!
# The LCSF stack

The stack is a submodule, so it is a parameter here: `LcsfStack` says what both bridges rely on.
-/

namespace ZdcPoc

open Bytes

inductive Fault where
  /-- `entity_list` indexed outside of its allocation -/
  | outOfBounds (slot : Nat)
  /-- a slot of `entity_list` read before it was registered -/
  | uninitialised (slot : Nat)
  /-- a write past the end of a heap block -/
  | overflow
  /-- a read past the end of a block, or of a byte that was never written -/
  | badRead
  /-- a string table indexed past its end -/
  | badIndex
  /-- a handle undeclared that was never written -/
  | badHandle
deriving DecidableEq, Repr

abbrev Result := Except Fault

def orFault {α : Type*} (o : Option α) (f : Fault) : Result α :=
  match o with
  | some a => .ok a
  | none => .error f

@[simp] theorem ok_bind {α β : Type} (a : α) (f : α → Result β) :
    ((Except.ok a : Result α) >>= f) = f a := rfl

@[simp] theorem error_bind {α β : Type} (e : Fault) (f : α → Result β) :
    ((Except.error e : Result α) >>= f) = .error e := rfl

@[simp] theorem orFault_some {α : Type*} (a : α) (f : Fault) : orFault (some a) f = .ok a := rfl

theorem Result.bind_ok {α β : Type} {x : Result α} {f : α → Result β} {b : β} (h : x >>= f = .ok b) :
    ∃ a, x = .ok a ∧ f a = .ok b := by
  cases x with
  | error e => cases h
  | ok a => exact ⟨a, rfl, h⟩

theorem Result.of_map {α β : Type} {x : Result α} {a : α} {f : α → β} {b : β} (h : x = .ok a)
    (hf : x.map f = .ok b) : f a = b := by
  rw [h] at hf
  exact Except.ok.inj hf

/-! ## Attributes -/

/-- `PayloadSize` is `none` where the bridge leaves the field as `FiloGet` returned it.
`pData` are the bytes at the pointer. -/
structure lcsf_valid_att_t where
  PayloadSize : Option Nat
  pData : List UInt8
deriving DecidableEq, Repr

structure lcsf_valid_cmd_t where
  CmdId : Nat
  pAttArray : Option (List lcsf_valid_att_t)
deriving DecidableEq, Repr

/-- `pAttArray[i]`. The validator passes all attributes of a command, in order. -/
def att (pAttArray : List lcsf_valid_att_t) (i : Nat) : Result lcsf_valid_att_t :=
  orFault pAttArray[i]? .badRead

def copyAtt (a : lcsf_valid_att_t) (off : Nat) (p : zdc_cmd_payload_t) : zdc_cmd_payload_t :=
  { p with bytes := p.bytes.write off (a.pData.take (a.PayloadSize.getD 0)) }

def LCSF_BRIDGE_ZDC_FILO_SIZE : Nat := 2

def withNul (bs : List UInt8) : List UInt8 := bs.takeWhile (· ≠ 0) ++ [0]

/-- The attribute that the receiver gets for one that the sender filled in: a string goes with its
NUL, anything else with its `PayloadSize` bytes. -/
def lcsf_valid_att_t.carried (t : lcsf_data_type) (a : lcsf_valid_att_t) : lcsf_valid_att_t :=
  let data := match t with
    | .LCSF_STRING => withNul a.pData
    | _ => a.pData.take (a.PayloadSize.getD 0)
  ⟨some data.length, data⟩

def lcsf_valid_cmd_t.carried (cmd : lcsf_valid_cmd_t) : lcsf_valid_cmd_t :=
  let types := (LCSF_zdc_ProtDesc cmd.CmdId).getD []
  { cmd with pAttArray := cmd.pAttArray.map (List.zipWith lcsf_valid_att_t.carried types) }

def lcsf_valid_att_t.conforms (t : lcsf_data_type) (a : lcsf_valid_att_t) : Bool :=
  a.PayloadSize == some a.pData.length &&
    match t with
    | .LCSF_UINT8 => a.pData.length ≤ 1
    | .LCSF_UINT16 => a.pData.length ≤ 2
    | .LCSF_BYTE_ARRAY => true
    | .LCSF_STRING => (0 : UInt8) ∈ a.pData

/-- What the validator checks of a command: a known id, with all of its attributes. A command
without attributes has a null array. -/
def lcsf_valid_cmd_t.conforms (cmd : lcsf_valid_cmd_t) : Bool :=
  match LCSF_zdc_ProtDesc cmd.CmdId, cmd.pAttArray with
  | some [], none => true
  | some types, some atts =>
    types ≠ [] ∧ types.length = atts.length ∧ (types.zip atts).all fun (t, a) => a.conforms t
  | _, _ => false

theorem lcsf_valid_cmd_t.conforms_cases {cmd : lcsf_valid_cmd_t} (h : cmd.conforms = true) :
    (LCSF_zdc_ProtDesc cmd.CmdId = some [] ∧ cmd.pAttArray = none) ∨
    ∃ types atts, LCSF_zdc_ProtDesc cmd.CmdId = some types ∧ cmd.pAttArray = some atts ∧
      types ≠ [] ∧ types.length = atts.length ∧ ∀ p ∈ types.zip atts, p.2.conforms p.1 = true := by
  unfold conforms at h
  split at h
  · rename_i hdesc hnull
    exact Or.inl ⟨hdesc, hnull⟩
  · rename_i types hdesc hatts
    simp only [ne_eq, decide_eq_true_eq, List.all_eq_true] at h
    exact Or.inr ⟨_, _, hdesc, hatts, h⟩
  · cases h

/-! ## The stack -/

/-- `wire` is the encoding of a command, `receive` what `LCSF_TranscoderReceive` finds in a message,
and `spill` what a failed encoding leaves in the send buffer. `FiloGet size nb` is for a FILO of `size`
elements, right after `FiloFreeAll`. -/
structure LcsfStack where
  GetVLESize : Nat → Nat
  GetVLESize_eq : ∀ v, GetVLESize v = minWidth v
  FiloGet : Nat → Nat → Bool
  FiloGet_eq : ∀ size nb, FiloGet size nb = decide (nb ≤ size)
  wire : lcsf_valid_cmd_t → Option (List UInt8)
  spill : lcsf_valid_cmd_t → Block → Block
  receive : List UInt8 → Option lcsf_valid_cmd_t
  receive_wire : ∀ {cmd msg}, wire cmd = some msg → receive msg = some cmd.carried
  receive_conforms : ∀ {msg cmd}, receive msg = some cmd → cmd.conforms = true

def LcsfStack.LCSF_ValidatorEncode (s : LcsfStack) (cmd : lcsf_valid_cmd_t) (pBuffer : Block)
    (buffSize : Nat) : Int × Block :=
  match s.wire cmd with
  | some msg =>
    if msg.length ≤ buffSize then (msg.length, Block.ofBytes msg ++ pBuffer.drop msg.length)
    else (-1, s.spill cmd pBuffer)
  | none => (-1, s.spill cmd pBuffer)

theorem LcsfStack.encode_cases (s : LcsfStack) (cmd : lcsf_valid_cmd_t) (pBuffer : Block)
    (buffSize : Nat) :
    (∃ msg, s.wire cmd = some msg ∧ msg.length ≤ buffSize ∧
      s.LCSF_ValidatorEncode cmd pBuffer buffSize =
        ((msg.length : Int), Block.ofBytes msg ++ pBuffer.drop msg.length)) ∨
    s.LCSF_ValidatorEncode cmd pBuffer buffSize = (-1, s.spill cmd pBuffer) := by
  unfold LCSF_ValidatorEncode
  cases s.wire cmd with
  | none => exact Or.inr rfl
  | some msg =>
    by_cases hlen : msg.length ≤ buffSize
    · exact Or.inl ⟨msg, rfl, hlen, if_pos hlen⟩
    · exact Or.inr (if_neg hlen)

/-- The command has an encoding, and `size` bytes hold it. -/
def LcsfStack.Fits (s : LcsfStack) (cmd : lcsf_valid_cmd_t) (size : Nat) : Prop :=
  ∃ msg, s.wire cmd = some msg ∧ msg ≠ [] ∧ msg.length ≤ size

end ZdcPoc
