import ZdcPoc.Code.MainA

/-!
# `main_tx.c`: the command line of the controller
-/

namespace ZdcPoc.Tx

def CMD_KEYEXPR : CString := .lit ['k', 'e', 'y', 'e', 'x', 'p', 'r']
def CMD_STATE : CString := .lit ['s', 't', 'a', 't', 'e']
def CMD_CONFIG : CString := .lit ['c', 'o', 'n', 'f', 'i', 'g']
def CMD_ENTITY : CString := .lit ['e', 'n', 't', 'i', 't', 'y']

def STATE_VAL_ON : CString := .lit ['o', 'n']
def STATE_VAL_OFF : CString := .lit ['o', 'f', 'f']

/-- What `getopt` finds. The argument of `i` is the number that `atoi` makes of it. -/
inductive opt_t where
  | k (optarg : CString)
  | v (optarg : CString)
  | i (optarg : Int32)
  | c (optarg : CString)
  | h
  | unknown
deriving DecidableEq, Repr

structure args_t where
  keyexpr : Option CString
  value : Option CString
  cmd : Option CString
  eid : Int32
deriving DecidableEq, Repr

def args_t.init : args_t := ⟨none, none, none, -1⟩

/-- The options, or the status that `main` returns while it reads them. -/
def getopt_loop : List opt_t → args_t → Except Int args_t
  | [], args => .ok args
  | .k optarg :: opts, args => getopt_loop opts { args with keyexpr := some optarg }
  | .v optarg :: opts, args => getopt_loop opts { args with value := some optarg }
  | .i optarg :: opts, args => getopt_loop opts { args with eid := optarg }
  | .c optarg :: opts, args => getopt_loop opts { args with cmd := some optarg }
  | .h :: _, _ => .error 0
  | .unknown :: _, _ => .error 1

/-- The `int` that is passed for a `uint_fast8_t` of 8 bits. -/
def to_uint_fast8 (eid : Int32) : UInt8 := eid.toUInt32.toUInt8

/-- The query that `z_get` sends. Without `-k` its keyexpr is made from a null pointer. -/
structure z_get_t where
  keyexpr : Option CString
  payload : List UInt8
deriving DecidableEq, Repr

/-- What is left to do with the `buffer` that the encoder gave out, if it did. -/
def send_command (args : args_t) (buffer : Option (List UInt8)) : Int × Option z_get_t :=
  match buffer with
  | none => (-1, none)
  | some payload => if payload.length = 0 then (-1, none) else (0, some ⟨args.keyexpr, payload⟩)

def process_command (s : LcsfStack) (args : args_t) : Result (Int × Option z_get_t) := do
  let some cmd := args.cmd | return (-1, none)
  if cmd = CMD_KEYEXPR then
    let some value := args.value | return (-1, none)
    let (buffer, _) ← A.zdc_encode_keyexpr s (to_uint_fast8 args.eid) value .zero
    return send_command args buffer
  else if cmd = CMD_STATE then
    let some value := args.value | return (-1, none)
    let state := if value = STATE_VAL_ON then 1 else 0
    let (buffer, _) ← A.zdc_encode_state s (to_uint_fast8 args.eid) state .zero
    return send_command args buffer
  else if cmd = CMD_CONFIG then
    let some _ := args.value | return (-1, none)
    return (0, none)
  else if cmd = CMD_ENTITY then
    let (buffer, _) ← A.zdc_encode_list_entity s .zero
    return send_command args buffer
  else
    return send_command args none

/-- The status that `main` returns, and the query that it sends before. The session opens, and its
tasks start. -/
def main (s : LcsfStack) (argv : List opt_t) : Result (Int × Option z_get_t) :=
  match getopt_loop argv .init with
  | .ok args => process_command s args
  | .error status => pure (status, none)

/-! ## Replies -/

/-- What is printed of the command in a message. `none` is a false return. -/
def LCSF_TranscoderReceive (s : LcsfStack) (msg : List UInt8) (CmdPayload : zdc_cmd_payload_t) :
    Result (Option A.printed_t × zdc_cmd_payload_t) :=
  match s.receive msg with
  | some cmd => do
    let cmdName := LCSF_Bridge_zdc_CMDID2CMDNAME cmd.CmdId
    let CmdPayload ← A.LCSF_Bridge_zdcGetCmdData cmdName cmd.pAttArray CmdPayload
    let printed ← A.zdc_MainExecute_prints cmdName (some CmdPayload)
    return (printed, CmdPayload)
  | none => pure (none, CmdPayload)

theorem LCSF_TranscoderReceive_status {s : LcsfStack} {msg : List UInt8} {cmd : lcsf_valid_cmd_t}
    (h : s.receive msg = some cmd) (CmdPayload : zdc_cmd_payload_t) :
    (LCSF_TranscoderReceive s msg CmdPayload).map (fun r => (r.1.isSome, r.2)) =
      A.LCSF_Bridge_zdcReceive cmd CmdPayload := by
  unfold LCSF_TranscoderReceive A.LCSF_Bridge_zdcReceive
  simp only [h, A.zdc_MainExecute_eq]
  cases A.LCSF_Bridge_zdcGetCmdData (LCSF_Bridge_zdc_CMDID2CMDNAME cmd.CmdId) cmd.pAttArray CmdPayload with
  | error e => rfl
  | ok p => cases h : A.zdc_MainExecute_prints (LCSF_Bridge_zdc_CMDID2CMDNAME cmd.CmdId) (some p) <;>
      simp only [ok_bind, h] <;> rfl

/-- `reply` is the payload of an answer, `none` an error. -/
def reply_handler (s : LcsfStack) (reply : Option (List UInt8)) (CmdPayload : zdc_cmd_payload_t) :
    Result (A.printed_t × zdc_cmd_payload_t) :=
  match reply with
  | some value => do
    let (printed, CmdPayload) ← LCSF_TranscoderReceive s value CmdPayload
    return (printed.getD .failed, CmdPayload)
  | none => pure (.error, CmdPayload)

end ZdcPoc.Tx
