import Mathlib.Data.List.TakeWhile
import ZdcPoc.Code.Net

/-!
# A stack and a Zenoh to run the node with

A message has the protocol, the command and the number of attributes in a byte each, then for each
attribute its id, its size in two bytes and its bytes.
-/

namespace ZdcPoc.World

def encode_att (i : Nat) (a : lcsf_valid_att_t) : List UInt8 :=
  UInt8.ofNat i :: (Bytes.leBytes 2 a.pData.length ++ a.pData)

def encode_atts : Nat → List lcsf_valid_att_t → List UInt8
  | _, [] => []
  | i, a :: as => encode_att i a ++ encode_atts (i + 1) as

def encode (cmd : lcsf_valid_cmd_t) : List UInt8 :=
  let atts := cmd.pAttArray.getD []
  [LCSF_ZDC_PROTOCOL_ID, UInt8.ofNat cmd.CmdId, UInt8.ofNat atts.length] ++ encode_atts 0 atts

def decode_atts : Nat → List lcsf_data_type → List UInt8 → Option (List lcsf_valid_att_t)
  | _, [], [] => some []
  | i, t :: ts, id :: lo :: hi :: rest =>
    let size := Bytes.leVal [lo, hi]
    let a : lcsf_valid_att_t := ⟨some size, rest.take size⟩
    if id.toNat = i ∧ a.conforms t then
      (decode_atts (i + 1) ts (rest.drop size)).map (a :: ·)
    else none
  | _, _, _ => none

def decode (msg : List UInt8) : Option lcsf_valid_cmd_t :=
  match msg with
  | protocol :: id :: nb :: rest =>
    match LCSF_zdc_ProtDesc id.toNat with
    | some types =>
      if protocol = LCSF_ZDC_PROTOCOL_ID ∧ nb.toNat = types.length then
        (decode_atts 0 types rest).map fun atts =>
          ⟨id.toNat, if types = [] then none else some atts⟩
      else none
    | none => none
  | _ => none

def fits (cmd : lcsf_valid_cmd_t) : Bool :=
  cmd.conforms && (cmd.pAttArray.getD []).all fun a => a.pData.length < 65536

theorem decode_encode_atts (i : Nat) (types : List lcsf_data_type) (atts : List lcsf_valid_att_t)
    (hlen : types.length = atts.length) (hi : i + atts.length ≤ 256)
    (hconf : ∀ p ∈ types.zip atts, p.2.conforms p.1 = true)
    (hsize : ∀ a ∈ atts, a.pData.length < 65536) :
    decode_atts i types (encode_atts i atts) = some atts := by
  induction atts generalizing i types with
  | nil =>
    rw [List.length_nil, List.length_eq_zero_iff] at hlen
    rw [hlen]
    rfl
  | cons a as ih =>
    obtain ⟨t, ts, rfl⟩ := List.exists_cons_of_length_eq_add_one hlen
    rw [List.length_cons] at hi
    have hid : (UInt8.ofNat i).toNat = i := by
      rw [UInt8.toNat_ofNat', Nat.mod_eq_of_lt (by omega)]
    have hn := Bytes.leVal_leBytes 2 a.pData.length
    rw [Nat.mod_eq_of_lt (show a.pData.length < 256 ^ 2 from hsize a List.mem_cons_self)] at hn
    have ha : a.conforms t = true := hconf (t, a) List.mem_cons_self
    have heq : (⟨some a.pData.length, a.pData⟩ : lcsf_valid_att_t) = a := by
      have hpay := ha
      unfold lcsf_valid_att_t.conforms at hpay
      rw [Bool.and_eq_true, beq_iff_eq] at hpay
      rw [← hpay.1]
    simp only [Bytes.leBytes] at hn
    simp only [encode_atts, encode_att, Bytes.leBytes, List.cons_append, List.nil_append, decode_atts,
      hid, hn, List.take_left, List.drop_left, heq, ha, and_self, if_true]
    rw [ih (i + 1) ts (by simpa using hlen) (by omega)
      (fun p hp => hconf p (List.mem_cons_of_mem _ hp)) fun b hb => hsize b (List.mem_cons_of_mem _ hb)]
    rfl

theorem protDesc_small {id : Nat} {types : List lcsf_data_type}
    (h : LCSF_zdc_ProtDesc id = some types) : id < 256 ∧ types.length ≤ 2 := by
  unfold LCSF_zdc_ProtDesc at h
  split at h <;> cases h <;> exact ⟨by omega, by decide⟩

theorem decode_encode {cmd : lcsf_valid_cmd_t} (h : fits cmd = true) : decode (encode cmd) = some cmd := by
  obtain ⟨id, atts⟩ := cmd
  rw [fits, Bool.and_eq_true, List.all_eq_true] at h
  obtain ⟨hconf, hsize⟩ := h
  rcases lcsf_valid_cmd_t.conforms_cases hconf with
    ⟨hdesc, hnull⟩ | ⟨types, as, hdesc, hatts, hne, hlen, hall⟩
  · simp only at hdesc hnull
    subst hnull
    have hid : (UInt8.ofNat id).toNat = id := by
      rw [UInt8.toNat_ofNat', Nat.mod_eq_of_lt (protDesc_small hdesc).1]
    simp [encode, encode_atts, decode, hid, hdesc, decode_atts]
  · simp only at hdesc hatts
    subst hatts
    obtain ⟨hid, hnb⟩ := protDesc_small hdesc
    have hid' : (UInt8.ofNat id).toNat = id := by rw [UInt8.toNat_ofNat', Nat.mod_eq_of_lt hid]
    have hnb' : (UInt8.ofNat as.length).toNat = types.length := by
      rw [UInt8.toNat_ofNat', Nat.mod_eq_of_lt (by omega), hlen]
    have hatts := decode_encode_atts 0 types as hlen (by omega) hall fun a ha => by
      simpa using hsize a ha
    simp only [encode, decode, Option.getD_some, List.cons_append, List.nil_append, hid', hdesc, hnb',
      and_self, if_true, hatts, Option.map_some, hne, if_false]

theorem decode_atts_conforms {i : Nat} {types : List lcsf_data_type} {msg : List UInt8}
    {atts : List lcsf_valid_att_t} (h : decode_atts i types msg = some atts) :
    types.length = atts.length ∧ ∀ p ∈ types.zip atts, p.2.conforms p.1 = true := by
  induction types generalizing i msg atts with
  | nil =>
    cases msg with
    | nil => cases h; exact ⟨rfl, by simp⟩
    | cons _ _ => cases h
  | cons t ts ih =>
    match msg, h with
    | [], h => cases h
    | [_], h => cases h
    | [_, _], h => cases h
    | id :: lo :: hi :: rest, h =>
      simp only [decode_atts] at h
      split at h
      · rename_i hok
        obtain ⟨as, has, rfl⟩ := Option.map_eq_some_iff.mp h
        obtain ⟨hlen, hall⟩ := ih has
        refine ⟨by simp [hlen], fun p hp => ?_⟩
        rcases List.mem_cons.mp hp with rfl | hp
        · exact hok.2
        · exact hall p hp
      · cases h

theorem decode_conforms {msg : List UInt8} {cmd : lcsf_valid_cmd_t} (h : decode msg = some cmd) :
    cmd.conforms = true := by
  unfold decode at h
  split at h
  · split at h
    · rename_i types hdesc
      split at h
      · obtain ⟨atts, hatts, rfl⟩ := Option.map_eq_some_iff.mp h
        obtain ⟨hlen, hall⟩ := decode_atts_conforms hatts
        unfold lcsf_valid_cmd_t.conforms
        by_cases hnil : types = []
        · subst hnil
          simp [hdesc]
        · simp only [hdesc, hnil, if_false]
          simpa [hnil, hlen] using hall
      · cases h
    · cases h
  · cases h

/-- A failed encoding leaves the send buffer as it was. -/
def stack : LcsfStack where
  GetVLESize := Bytes.minWidth
  GetVLESize_eq _ := rfl
  FiloGet size nb := nb ≤ size
  FiloGet_eq _ _ := rfl
  wire cmd := if fits cmd.carried then some (encode cmd.carried) else none
  spill _ pBuffer := pBuffer
  receive := decode
  receive_wire := by
    intro cmd msg h
    split at h
    · rename_i hfits
      cases h
      exact decode_encode hfits
    · cases h
  receive_conforms := decode_conforms

/-! ## Two Zenohs -/

/-- A view of a pointer and a length. -/
def view (made : CString) (block : Block) : List UInt8 :=
  (block.take made.chars.length).map fun b => b.getD 0

theorem view_str {made : CString} {block : Block} (h : block.str = some made) :
    view made block = made.chars := by
  rw [view, Block.take_str h, Block.ofBytes, List.map_map]
  exact List.map_id' _

def acceptAll : Zenoh := ⟨fun _ => true, view, view_str⟩

/-- The chunks between slashes are not empty. `start` says that a chunk starts here. -/
def chunks (start : Bool) : List UInt8 → Bool
  | [] => !start
  | b :: bs => if b = 0x2f then !start && chunks true bs else chunks false bs

def noEmptyChunk : Zenoh := ⟨fun ke => chunks true ke.chars, view, view_str⟩

/-- A query calls its queryables one after the other. -/
def call_back (handler : B.node_t → Result (Option B.reply_t × B.node_t)) :
    Nat → B.node_t → Result (List B.reply_t × B.node_t)
  | 0, node => pure ([], node)
  | n + 1, node => do
    let (reply, node) ← handler node
    let (replies, node) ← call_back handler n node
    return (reply.toList ++ replies, node)

theorem call_back_one (handler : B.node_t → Result (Option B.reply_t × B.node_t)) (node : B.node_t) :
    call_back handler 1 node = (handler node).map fun r => (r.1.toList, r.2) := by
  rw [call_back]
  cases handler node with
  | error e => rfl
  | ok r =>
    change Except.ok (r.1.toList ++ [], r.2) = _
    rw [List.append_nil]
    rfl

def net (z : Zenoh) (intersects : Option CString → CString → Bool) : Net where
  toZenoh := z
  intersects := intersects
  reached kind ke session := session.filter fun d => d.kind = kind ∧ intersects ke d.keyexpr
  reached_eq _ _ _ := rfl
  queried handler ke node :=
    call_back handler ((node.zdcInfo.session.filter fun d =>
      d.kind = .queryable ∧ intersects ke d.keyexpr).countP fun d => d.callback = some .zdc_cmd_handler) node
  queried_none h := by rw [h, call_back]; rfl
  queried_one h := by rw [h, call_back_one]

def str (bs : List UInt8) : CString :=
  ⟨bs.takeWhile (· ≠ 0), fun h => by simpa using List.mem_takeWhile_imp h⟩

end ZdcPoc.World
