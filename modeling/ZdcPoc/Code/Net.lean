import Mathlib.Data.Multiset.Filter
import ZdcPoc.Code.MainB

/-!
# Messages on the Zenoh network

Zenoh brings the messages to the declarations. Which keyexprs intersect, and in what order several
queryables are called, is left to it.
-/

namespace ZdcPoc

/-- `intersects` is for a message and a declaration. The keyexpr of a message that is made from a null
pointer is `none`. `queried` is what a query does to the node when the handler handles it. -/
structure Net extends Zenoh where
  intersects : Option CString → CString → Bool
  reached : DeclKind → Option CString → Session → Session
  reached_eq : ∀ kind ke session,
    reached kind ke session = session.filter fun d => d.kind = kind ∧ intersects ke d.keyexpr
  queried : (B.node_t → Result (Option B.reply_t × B.node_t)) → Option CString → B.node_t →
    Result (List B.reply_t × B.node_t)
  queried_none : ∀ {handler ke} {node : B.node_t},
    (reached .queryable ke node.zdcInfo.session).countP (fun d => d.callback = some .zdc_cmd_handler) = 0 →
    queried handler ke node = .ok ([], node)
  queried_one : ∀ {handler ke} {node : B.node_t},
    (reached .queryable ke node.zdcInfo.session).countP (fun d => d.callback = some .zdc_cmd_handler) = 1 →
    queried handler ke node = (handler node).map fun r => (r.1.toList, r.2)

namespace B

def dispatch (net : Net) (s : LcsfStack) (ke : Option CString) (query : query_t) (node : node_t) :
    Result (List reply_t × node_t) :=
  net.queried (zdc_cmd_handler net.toZenoh s query) ke node

end B

end ZdcPoc
