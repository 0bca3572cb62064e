import Mathlib.Data.Multiset.AddSub
import ZdcPoc.Lib.Block

/-!
# The Zenoh session

Zenoh itself is outside of the repository. What the node sees of it is a multiset of live
declarations, whether Zenoh takes the keyexpr of a new one, and on what a put goes out.
-/

namespace ZdcPoc

inductive Callback where
  | zdc_cmd_handler
  | application (address : Nat)
deriving DecidableEq, Repr

inductive DeclKind where
  | subscriber
  | queryable
deriving DecidableEq, Repr

/-- A declaration that Zenoh serves. `entity` is the slot whose handle it was made for. -/
structure Decl where
  entity : Nat
  kind : DeclKind
  keyexpr : CString
  callback : Option Callback
  config : Option Nat
deriving DecidableEq, Repr

abbrev Session := Multiset Decl

/-- What the memory of a handle holds. An `unwritten` one is as `malloc` left it, and `null` holds no
declaration. -/
inductive handle_t where
  | unwritten
  | null
  | declared (d : Decl)
deriving DecidableEq, Repr

def handle_t.decl : handle_t → Option Decl
  | unwritten => none
  | null => none
  | declared d => some d

/-- `viewed made block` is the keyexpr of a put through a view that was made of the string `made`, and
whose pointer now leads to `block`. -/
structure Zenoh where
  accepts : CString → Bool
  viewed : CString → Block → List UInt8
  viewed_str : ∀ {made block}, block.str = some made → viewed made block = made.chars

/-- `z_declare_subscriber` and `z_declare_queryable`: whether it worked, the handle and the
session. A refused declaration leaves a null handle and creates nothing. -/
def z_declare (z : Zenoh) (d : Decl) (session : Session) : Bool × handle_t × Session :=
  if z.accepts d.keyexpr then (true, .declared d, d ::ₘ session) else (false, .null, session)

theorem z_declare_accepted {z : Zenoh} {d : Decl} {session : Session} (h : z.accepts d.keyexpr = true) :
    z_declare z d session = (true, .declared d, d ::ₘ session) := if_pos h

theorem z_declare_refused {z : Zenoh} {d : Decl} {session : Session} (h : z.accepts d.keyexpr = false) :
    z_declare z d session = (false, .null, session) := if_neg (by simp [h])

/-- `z_undeclare_subscriber` and `z_undeclare_queryable` of a moved handle. `none` is the undeclare of
memory that was never written. -/
def z_undeclare (data : handle_t) (session : Session) : Option Session :=
  match data with
  | .unwritten => none
  | .null => some session
  | .declared d => some (session.erase d)

end ZdcPoc
