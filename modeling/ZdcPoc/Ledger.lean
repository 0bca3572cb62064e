import ZdcPoc.Code.Heap
import ZdcPoc.Keyexprs
import ZdcPoc.Live

/-!
# The heap over a run

Every block is an array, the keyexpr of a slot or the buffer of a list. A rename gives back the block that
it replaces, and a close those of the keyexprs. The buffers of the lists are never given back.
-/

namespace ZdcPoc.B

open List zdc_info_t

variable {z : Zenoh} {s : LcsfStack} {info info' t : zdc_info_t} {zdc_suffix ke : CString}
  {events : List Event} {event : Event} {cmd : Command} {m m' : heap_t} {i n k : Nat} {arrays : List (Nat × Nat)}

/-! ## The node with its heap -/

inductive heap_fault_t where
  | fault (f : Fault)
  /-- a `realloc` or `free` of what is no live block -/
  | badFree
deriving DecidableEq, Repr

structure heaped_t where
  zdcInfo : zdc_info_t
  mem : heap_t

namespace Event

def heap (zdcInfo : zdc_info_t) (m : heap_t) : Event → Option heap_t
  | add rg => some (zdc_add_entity_heap rg.ke_suffix zdcInfo m)
  | exec .list_entities_req => some (zdcExecutelist_entities_req_heap zdcInfo m)
  | exec (.set_entity_keyexpr id ke) => zdcExecuteset_entity_keyexpr_heap id.toNat ke zdcInfo m
  | exec _ => some m

def heap_step (z : Zenoh) (s : LcsfStack) (event : Event) (node : heaped_t) :
    Except heap_fault_t (Bool × heaped_t) :=
  match event.step z s node.zdcInfo, event.heap node.zdcInfo node.mem with
  | .ok (r, zdcInfo), some mem => .ok (r, ⟨zdcInfo, mem⟩)
  | .ok _, none => .error .badFree
  | .error f, _ => .error (.fault f)

def lists : Event → Bool
  | exec .list_entities_req => true
  | _ => false

end Event

/-! ## What each event keeps -/

def zdc_info_t.ke_size (info : zdc_info_t) (i : Nat) : Nat := (info.cell i).elim 0 fun c => c.entity.ke_size

/-- The blocks of the first `n` slots. -/
def ke_blocks (info : zdc_info_t) (kes : Nat → Nat) (n : Nat) : List (Nat × Nat) :=
  (range n).map fun i => (kes i, info.ke_size i)

/-- `n` slots are registered, and `k` lists were written. `kes` are the addresses of the keyexprs. -/
structure Accounts (arrays : List (Nat × Nat)) (n k : Nat) (kes : Nat → Nat) (info : zdc_info_t) (m : heap_t) :
    Prop where
  pointers : ∀ i < n, m.ke_suffix i = some (kes i)
  live : ∃ tmp, m.heap.live ~ ke_blocks info kes n ++ (tmp ++ arrays) ∧
    tmp.map Prod.snd = replicate k (64 * info.el_size.toNat)

theorem ke_size_of_cell {c : Cell} (hc : info.cell i = some c) : info.ke_size i = c.entity.ke_size := by
  rw [zdc_info_t.ke_size, hc, Option.elim_some]

theorem Stepped.ke_size {c : Cell} (hd : Stepped z cmd info info') (hc : info.cell i = some c) :
    info'.ke_size i = (cmd.renames i).elim (info.ke_size i) fun ke => max ke.size (info.ke_size i) := by
  rw [ke_size_of_cell hc, zdc_info_t.ke_size, hd.cell, hc, Option.map_some, Option.elim_some, act_ke_size]

theorem ke_blocks_congr {kes kes' : Nat → Nat} (h : ∀ i < n, kes' i = kes i ∧ info'.ke_size i = info.ke_size i) :
    ke_blocks info' kes' n = ke_blocks info kes n := by
  refine map_congr_left fun i hi => ?_
  obtain ⟨hke, hsize⟩ := h i (mem_range.mp hi)
  rw [hke, hsize]

theorem ke_blocks_perm (info : zdc_info_t) (kes : Nat → Nat) (hi : i < n) : ke_blocks info kes n ~
    (kes i, info.ke_size i) :: ((range n).erase i).map fun j => (kes j, info.ke_size j) :=
  (perm_cons_erase (mem_range.mpr hi)).map _

theorem ke_blocks_update {kes : Nat → Nat} {p : Nat} (hi : i < n)
    (hsize : ∀ j < n, j ≠ i → info'.ke_size j = info.ke_size j) :
    ke_blocks info' (Function.update kes i p) n ~
      (p, info'.ke_size i) :: ((range n).erase i).map fun j => (kes j, info.ke_size j) := by
  refine (ke_blocks_perm info' _ hi).trans ?_
  rw [Function.update_self]
  refine .cons _ (.of_eq (map_congr_left fun j hj => ?_))
  obtain ⟨hne, hj⟩ := nodup_range.mem_erase_iff.mp hj
  rw [Function.update_of_ne hne, hsize j (mem_range.mp hj) hne]

theorem Accounts.keep {kes : Nat → Nat} (h : Accounts arrays n k kes info m)
    (hsize : ∀ i < n, info'.ke_size i = info.ke_size i) (hel : info'.el_size = info.el_size) :
    Accounts arrays n k kes info' m := by
  obtain ⟨tmp, hlive, htmp⟩ := h.live
  refine ⟨h.pointers, tmp, ?_, hel ▸ htmp⟩
  rwa [ke_blocks_congr fun i hi => ⟨rfl, hsize i hi⟩]

theorem Accounts.list {kes : Nat → Nat} (h : Accounts arrays n k kes info m)
    (hsize : ∀ i < n, info'.ke_size i = info.ke_size i) (hel : info'.el_size = info.el_size) :
    Accounts arrays n (k + 1) kes info' (zdcExecutelist_entities_req_heap info m) := by
  obtain ⟨tmp, hlive, htmp⟩ := h.live
  refine ⟨h.pointers, (m.heap.next, 64 * info.el_size.toNat) :: tmp, ?_, ?_⟩
  · rw [ke_blocks_congr fun i hi => ⟨rfl, hsize i hi⟩]
    exact (hlive.cons _).trans perm_middle.symm
  · rw [map_cons, htmp, hel, replicate_succ]

theorem Accounts.add {kes : Nat → Nat} {ke : CString} (h : Accounts arrays n k kes info m)
    (hidx : info.el_idx.toNat = n) (hnew : info'.ke_size n = ke.size)
    (hsize : ∀ i < n, info'.ke_size i = info.ke_size i) (hel : info'.el_size = info.el_size) :
    Accounts arrays (n + 1) k (Function.update kes n m.heap.next) info' (zdc_add_entity_heap ke info m) := by
  obtain ⟨tmp, hlive, htmp⟩ := h.live
  have hold : ∀ i < n, Function.update kes n m.heap.next i = kes i :=
    fun i hi => Function.update_of_ne (Nat.ne_of_lt hi) ..
  refine ⟨fun i hi => ?_, tmp, ?_, hel ▸ htmp⟩
  · change Function.update m.ke_suffix info.el_idx.toNat (some m.heap.next) i = _
    rw [hidx]
    rcases Nat.lt_succ_iff_lt_or_eq.mp hi with hi | rfl
    · rw [Function.update_of_ne (Nat.ne_of_lt hi), hold i hi, h.pointers i hi]
    · rw [Function.update_self, Function.update_self]
  · have hblocks : ke_blocks info' (Function.update kes n m.heap.next) (n + 1) =
        ke_blocks info kes n ++ [(m.heap.next, ke.size)] := by
      rw [ke_blocks, range_succ, map_append, map_singleton, Function.update_self, hnew]
      exact congrArg (· ++ _) (ke_blocks_congr fun i hi => ⟨hold i hi, hsize i hi⟩)
    rw [hblocks, append_assoc]
    exact (hlive.cons _).trans perm_middle.symm

theorem Accounts.realloc {kes : Nat → Nat} {size : Nat} (h : Accounts arrays n k kes info m) (hi : i < n)
    (hnew : info'.ke_size i = size) (hsize : ∀ j < n, j ≠ i → info'.ke_size j = info.ke_size j)
    (hel : info'.el_size = info.el_size) : ∃ p heap, m.heap.realloc (kes i) size = some (p, heap) ∧
      Accounts arrays n k (Function.update kes i p) info'
        { m with heap, ke_suffix := Function.update m.ke_suffix i (some p) } := by
  obtain ⟨tmp, hlive, htmp⟩ := h.live
  have hapart := (ke_blocks_perm info kes hi).append_right (tmp ++ arrays)
  obtain ⟨p, heap, hrealloc, hmoved⟩ := Heap.realloc_perm size (hlive.trans hapart)
  refine ⟨p, heap, hrealloc, fun j hj => ?_, tmp, ?_, hel ▸ htmp⟩
  · change Function.update m.ke_suffix i (some p) j = _
    by_cases hji : j = i
    · rw [hji, Function.update_self, Function.update_self]
    · rw [Function.update_of_ne hji, Function.update_of_ne hji, h.pointers j hj]
  · rw [← hnew] at hmoved
    exact hmoved.trans ((ke_blocks_update hi hsize).append_right _).symm

/-! ## Commands -/

theorem Accounts.keyexpr {kes : Nat → Nat} {id : UInt16} {r : Bool} (h : Accounts arrays n k kes info m)
    (hw : info.WF) (hfilled : ∀ i, (∃ c, info.cell i = some c) ↔ i < n)
    (hexec : execute z s (.set_entity_keyexpr id ke) info = .ok (r, info')) :
    ∃ m' kes', zdcExecuteset_entity_keyexpr_heap id.toNat ke info m = some m' ∧
      Accounts arrays n k kes' info' m' := by
  have hd := execute_stepped hw hexec
  have hother : ∀ j < n, j ≠ id.toNat → info'.ke_size j = info.ke_size j := by
    intro j hj hne
    obtain ⟨c, hc⟩ := (hfilled j).mpr hj
    rw [hd.ke_size hc, Command.renames, if_neg hne.symm, Option.elim_none]
  unfold zdcExecuteset_entity_keyexpr_heap
  rcases execute_keyexpr_cases hw hexec with ⟨hge, -⟩ | ⟨hlt, c, hc, -⟩
  · refine ⟨m, kes, if_pos hge, h.keep (fun j hj => hother j hj ?_) hd.el_size⟩
    obtain ⟨c, hc⟩ := (hfilled j).mpr hj
    have := hw.lt_of_cell hc
    omega
  · have hn : id.toNat < n := (hfilled _).mp ⟨c, hc⟩
    have hself : info'.ke_size id.toNat = max ke.size c.entity.ke_size := by
      rw [hd.ke_size hc, Command.renames, if_pos rfl, Option.elim_some, ke_size_of_cell hc]
    simp only [if_neg (Nat.not_le.mpr hlt), entity_of_cell hc]
    by_cases hlong : ke.size > c.entity.ke_size
    · obtain ⟨p, heap, hrealloc, h'⟩ := h.realloc hn (hself.trans (max_eq_left (Nat.le_of_lt hlong))) hother hd.el_size
      refine ⟨_, _, ?_, h'⟩
      rw [if_pos hlong, h.pointers _ hn, Option.bind_eq_bind, Option.bind_some, hrealloc]
      rfl
    · refine ⟨m, kes, if_neg hlong, h.keep (fun j hj => ?_) hd.el_size⟩
      by_cases hj' : j = id.toNat
      · rw [hj', hself, ke_size_of_cell hc, max_eq_right (Nat.le_of_not_lt hlong)]
      · exact hother j hj hj'

/-! ## Runs -/

/-- The node with its heap, beside the node alone. -/
structure Ledger (zdc_suffix : CString) (arrays : List (Nat × Nat)) (el_size : UInt16) (events : List Event)
    (info : zdc_info_t) (node : heaped_t) : Prop where
  same : node.zdcInfo = info
  traced : Traced zdc_suffix events info
  el_size : info.el_size = el_size
  accounts : ∃ kes, Accounts arrays (registered zdc_suffix events).length (events.countP Event.lists) kes info
    node.mem

theorem heap_step_ok {node : heaped_t} {r : Bool} (hstep : event.step z s node.zdcInfo = .ok (r, info'))
    (hheap : event.heap node.zdcInfo node.mem = some m) :
    event.heap_step z s node = .ok (r, ⟨info', m⟩) := by
  rw [Event.heap_step, hstep, hheap]

theorem Traced.accounts_exec {kes : Nat → Nat} {r : Bool} (h : Traced zdc_suffix events info)
    (ha : Accounts arrays (registered zdc_suffix events).length k kes info m)
    (hexec : execute z s cmd info = .ok (r, info')) :
    ∃ m' kes', (Event.exec cmd).heap info m = some m' ∧ Accounts arrays (registered zdc_suffix events).length
      (k + [Event.exec cmd].countP Event.lists) kes' info' m' := by
  have hd := execute_stepped h.wf hexec
  have hsame : (∀ i, cmd.renames i = none) →
      ∀ i < (registered zdc_suffix events).length, info'.ke_size i = info.ke_size i := by
    intro hnone i hi
    obtain ⟨c, hc⟩ := (h.filled i).mpr hi
    rw [hd.ke_size hc, hnone, Option.elim_none]
  cases cmd with
  | list_entities_req => exact ⟨_, kes, rfl, ha.list (hsame fun _ => rfl) hd.el_size⟩
  | set_entity_state id b => exact ⟨m, kes, rfl, ha.keep (hsame fun _ => rfl) hd.el_size⟩
  | set_entity_config id config => exact ⟨m, kes, rfl, ha.keep (hsame fun _ => rfl) hd.el_size⟩
  | set_entity_keyexpr id ke => exact ha.keyexpr h.wf h.filled hexec

theorem Traced.accounts_add {kes : Nat → Nat} {rg : Registration} (h : Traced zdc_suffix events info)
    (ha : Accounts arrays (registered zdc_suffix events).length k kes info m) (hfresh : AddsFresh (.add rg) info)
    (hadd : rg.add z info = .ok info') : ∃ kes',
      Accounts arrays ((registered zdc_suffix events).length + 1) k kes' info'
        (zdc_add_entity_heap rg.ke_suffix info m) := by
  obtain ⟨hidx, -⟩ := h.el_idx_fresh (hfresh rg rfl).2
  have hcell := Registration.add_cell h.wf hadd
  rw [hidx] at hcell
  refine ⟨_, ha.add hidx ?_ (fun i hi => ?_) (Registration.add_el_size h.wf hadd)⟩
  · rw [ke_size_of_cell ((hcell _).trans (if_pos rfl)), Registration.cell_ke_size]
  · rw [zdc_info_t.ke_size, hcell, if_neg (Nat.ne_of_lt hi), zdc_info_t.ke_size]

theorem Ledger.step {el_size : UInt16} {node : heaped_t} {r : Bool}
    (h : Ledger zdc_suffix arrays el_size events info node) (hfresh : AddsFresh event info)
    (hstep : event.step z s info = .ok (r, info')) : ∃ r' node', event.heap_step z s node = .ok (r', node') ∧
      Ledger zdc_suffix arrays el_size (events ++ [event]) info' node' := by
  obtain ⟨rfl, htraced, hel, kes, ha⟩ := h
  have htraced' := htraced.step hfresh hstep
  cases event with
  | add rg =>
    obtain ⟨mid, hadd, hmid⟩ := Result.bind_ok hstep
    cases hmid
    obtain ⟨kes', ha'⟩ := htraced.accounts_add ha hfresh hadd
    refine ⟨_, _, heap_step_ok hstep rfl, rfl, htraced', (Registration.add_el_size htraced.wf hadd).trans hel,
      kes', ?_⟩
    rw [registered_add, length_append, length_singleton, countP_append]
    exact ha'
  | exec cmd =>
    obtain ⟨m', kes', hheap, ha'⟩ := htraced.accounts_exec ha hstep
    refine ⟨_, _, heap_step_ok hstep hheap, rfl, htraced', (execute_stepped htraced.wf hstep).el_size.trans hel,
      kes', ?_⟩
    rw [registered_exec, countP_append]
    exact ha'

theorem Ledger.start {entity_nb buff_size : Nat} (sizeof_entity : Nat)
    (hinit : zdc_MainInit z 0 entity_nb buff_size zdc_suffix = .ok info) :
    Ledger zdc_suffix [(1, (UInt16.ofNat buff_size).toNat), (0, sizeof_entity * info.el_size.toNat)] info.el_size
      [] info ⟨info, zdc_MainInit_heap sizeof_entity entity_nb buff_size zdc_suffix⟩ := by
  refine ⟨rfl, .init hinit, rfl, fun _ => 2, fun i hi => ?_, [], ?_, rfl⟩
  · rw [registered, filterMap_nil, length_singleton, Nat.lt_one_iff] at hi
    rw [hi]
    rfl
  · have hsize : info.ke_size 0 = zdc_suffix.size := by
      rw [ke_size_of_cell ((MainInit_cell hinit 0).trans (if_pos rfl)), Cell.turn_ke_size]
      rfl
    rw [(MainInit_filled hinit).2]
    change _ ~ [(2, info.ke_size 0)] ++ _
    rw [hsize]
    exact .refl _

theorem Ledger.run {entity_nb buff_size : Nat} (sizeof_entity : Nat)
    (hinit : zdc_MainInit z 0 entity_nb buff_size zdc_suffix = .ok info) {events : List Event}
    (hfresh : Run.Each (Event.step z s) (Run.Completed AddsFresh) events info)
    (hrun : Run.run (Event.step z s) events info = .ok t) :
    ∃ m, Run.run (Event.heap_step z s) events
        ⟨info, zdc_MainInit_heap sizeof_entity entity_nb buff_size zdc_suffix⟩ = .ok ⟨t, m⟩ ∧
      Ledger zdc_suffix [(1, (UInt16.ofNat buff_size).toNat), (0, sizeof_entity * t.el_size.toNat)] t.el_size
        events t ⟨t, m⟩ := by
  have hlift (done : List Event) (event : Event) (node : zdc_info_t) (r : Bool) (node' : zdc_info_t)
      (heaped : heaped_t) (h : Ledger zdc_suffix [(1, (UInt16.ofNat buff_size).toNat),
        (0, sizeof_entity * info.el_size.toNat)] info.el_size done node heaped) (hgood : AddsFresh event node)
      (hstep : event.step z s node = .ok (r, node')) := h.step hgood hstep
  obtain ⟨⟨t', m⟩, hheap, h⟩ := Run.run_lift hlift [] hfresh hrun (.start sizeof_entity hinit)
  obtain rfl : t' = t := h.same
  rw [nil_append, ← h.el_size] at h
  exact ⟨m, hheap, h⟩

/-- The sizes of the blocks that are left when the keyexprs are left out. -/
def kept (sizeof_entity buff_size : Nat) (events : List Event) (info : zdc_info_t) : List Nat :=
  replicate (events.countP Event.lists) (64 * info.el_size.toNat) ++
    [(UInt16.ofNat buff_size).toNat, sizeof_entity * info.el_size.toNat]

theorem kept_eq {sizeof_entity buff_size : Nat} {tmp : List (Nat × Nat)}
    (h : tmp.map Prod.snd = replicate (events.countP Event.lists) (64 * info.el_size.toNat)) :
    (tmp ++ [(1, (UInt16.ofNat buff_size).toNat), (0, sizeof_entity * info.el_size.toNat)]).map Prod.snd =
      kept sizeof_entity buff_size events info := by
  rw [map_append, h]
  rfl

/-- In every run that completes and whose registrations go to fresh slots: each `realloc` is of a live block,
and the live blocks are those of the keyexprs, the two arrays, and one of 64 bytes for each slot for every
list so far. -/
theorem heap_accounted {entity_nb buff_size : Nat} (sizeof_entity : Nat)
    (hinit : zdc_MainInit z 0 entity_nb buff_size zdc_suffix = .ok info) (events : List Event)
    (hfresh : Run.Each (Event.step z s) (Run.Completed AddsFresh) events info)
    (hrun : Run.run (Event.step z s) events info = .ok t) :
    ∃ m, Run.run (Event.heap_step z s) events
        ⟨info, zdc_MainInit_heap sizeof_entity entity_nb buff_size zdc_suffix⟩ = .ok ⟨t, m⟩ ∧
      m.heap.live.map Prod.snd ~ (range (registered zdc_suffix events).length).map t.ke_size ++
        kept sizeof_entity buff_size events t := by
  obtain ⟨m, hheap, h⟩ := Ledger.run sizeof_entity hinit hfresh hrun
  obtain ⟨kes, -, tmp, hlive, htmp⟩ := h.accounts
  refine ⟨m, hheap, (hlive.map Prod.snd).trans (.of_eq ?_)⟩
  rw [map_append, kept_eq htmp, ke_blocks, map_map]
  rfl

/-- A longer keyexpr and a list, when a slot takes 100 bytes. -/
def listed : List Event :=
  [.add (.sub true (World.str [0x61]) none (.application 0)),
    .exec (.set_entity_keyexpr 1 (World.str [0x62, 0x63, 0x64])), .exec .list_entities_req]

theorem listed_fresh (hinit : zdc_MainInit World.acceptAll 0 1 64 (World.str [0x7a]) = .ok info) :
    Run.Each (Event.step World.acceptAll World.stack) (Run.Completed AddsFresh) listed info := by
  obtain ⟨hf, hsize⟩ := MainInit_filled hinit
  refine ⟨fun _ _ _ => ?_, fun _ _ _ => ⟨fun _ _ _ => nofun, fun _ _ _ => ⟨fun _ _ _ => nofun, fun _ _ _ => trivial⟩⟩⟩
  rintro rg ⟨⟩
  rw [hf.el_idx, hsize]
  refine ⟨by decide, ?_⟩
  rw [MainInit_cell hinit, if_neg (by decide)]

theorem heap_accounted_listed : ∃ info t m, zdc_MainInit World.acceptAll 0 1 64 (World.str [0x7a]) = .ok info ∧
    Run.run (Event.step World.acceptAll World.stack) listed info = .ok t ∧
    Run.run (Event.heap_step World.acceptAll World.stack) listed
      ⟨info, zdc_MainInit_heap 100 1 64 (World.str [0x7a])⟩ = .ok ⟨t, m⟩ ∧
    m.heap.live.map Prod.snd ~ [2, 4, 128, 64, 200] := by
  obtain ⟨info, t, hinit, hrun, hsizes⟩ : ∃ info t,
      zdc_MainInit World.acceptAll 0 1 64 (World.str [0x7a]) = .ok info ∧
      Run.run (Event.step World.acceptAll World.stack) listed info = .ok t ∧
      (range (registered (World.str [0x7a]) listed).length).map t.ke_size ++ kept 100 64 listed t =
        [2, 4, 128, 64, 200] :=
    ⟨_, _, rfl, rfl, rfl⟩
  obtain ⟨m, hheap, hlive⟩ := heap_accounted 100 hinit listed (listed_fresh hinit) hrun
  exact ⟨info, t, m, hinit, hrun, hheap, hsizes ▸ hlive⟩

/-! ## Closing -/

theorem close_frees_all {kes : Nat → Nat} {is : List Nat} (h : ∀ i ∈ is, m.ke_suffix i = some (kes i)) (heap : Heap) :
    is.foldlM (fun heap i => do heap.free (← m.ke_suffix i)) heap = heap.free_all (is.map kes) := by
  induction is generalizing heap with
  | nil => rfl
  | cons i is ih =>
    rw [Heap.free_all, map_cons, foldlM_cons, foldlM_cons, h i mem_cons_self]
    change heap.free (kes i) >>= _ = _
    cases heap.free (kes i) with
    | none => rfl
    | some heap => exact ih (fun j hj => h j (mem_cons_of_mem _ hj)) heap

theorem close_heap_eq {kes : Nat → Nat} (h : ∀ i < info.el_size.toNat, m.ke_suffix i = some (kes i)) :
    zdc_close_heap info m = (m.heap.free_all ((ke_blocks info kes info.el_size.toNat).map Prod.fst)).map
      fun heap => { m with heap } := by
  have haddresses : (ke_blocks info kes info.el_size.toNat).map Prod.fst = (range info.el_size.toNat).map kes := by
    rw [ke_blocks, map_map]
    rfl
  rw [zdc_close_heap, close_frees_all fun i hi => h i (mem_range.mp hi), haddresses]
  cases m.heap.free_all ((range info.el_size.toNat).map kes) <;> rfl

/-- After a run that completes and has registered all slots, a close frees each keyexpr once and nothing
else. A second close would free a block that is not live. -/
theorem close_frees {entity_nb buff_size : Nat} (sizeof_entity : Nat)
    (hinit : zdc_MainInit z 0 entity_nb buff_size zdc_suffix = .ok info) (events : List Event)
    (hfresh : Run.Each (Event.step z s) (Run.Completed AddsFresh) events info)
    (hrun : Run.run (Event.step z s) events info = .ok t)
    (hfull : (registered zdc_suffix events).length = t.el_size.toNat) :
    ∃ m m' closed, Run.run (Event.heap_step z s) events
        ⟨info, zdc_MainInit_heap sizeof_entity entity_nb buff_size zdc_suffix⟩ = .ok ⟨t, m⟩ ∧
      zdc_close z t = .ok closed ∧ zdc_close_heap t m = some m' ∧
      m'.heap.live.map Prod.snd ~ kept sizeof_entity buff_size events t ∧ zdc_close_heap t m' = none := by
  obtain ⟨m, hheap, h⟩ := Ledger.run sizeof_entity hinit hfresh hrun
  obtain ⟨kes, hpointers, tmp, hlive, htmp⟩ := h.accounts
  rw [hfull] at hpointers hlive
  obtain ⟨closed, hclosed, -⟩ := close_loop_spec z t (range t.el_size.toNat) nodup_range fun i hi => by
    obtain ⟨c, hc⟩ := (h.traced.filled i).mpr (hfull ▸ mem_range.mp hi)
    exact ⟨c, hc, h.traced.wf.sound i c hc⟩
  obtain ⟨heap, hfree, hleft⟩ := Heap.free_all_perm hlive
  have hblocks : ke_blocks t kes t.el_size.toNat ≠ [] := by
    unfold ke_blocks
    simp [← hfull, registered]
  have hclose := close_heap_eq (m := m) hpointers
  have hagain := close_heap_eq (m := { m with heap }) hpointers
  rw [hfree] at hclose
  rw [Heap.free_all_again hlive hleft hblocks] at hagain
  exact ⟨m, { m with heap }, closed, hheap, hclosed, hclose, (hleft.map Prod.snd).trans (.of_eq (kept_eq htmp)),
    hagain⟩

theorem close_frees_listed : ∃ info t m m', zdc_MainInit World.acceptAll 0 1 64 (World.str [0x7a]) = .ok info ∧
    Run.run (Event.step World.acceptAll World.stack) listed info = .ok t ∧
    Run.run (Event.heap_step World.acceptAll World.stack) listed
      ⟨info, zdc_MainInit_heap 100 1 64 (World.str [0x7a])⟩ = .ok ⟨t, m⟩ ∧
    zdc_close_heap t m = some m' ∧ m'.heap.live.map Prod.snd ~ [128, 64, 200] ∧ zdc_close_heap t m' = none := by
  obtain ⟨info, t, hinit, hrun, hfull, hsizes⟩ : ∃ info t,
      zdc_MainInit World.acceptAll 0 1 64 (World.str [0x7a]) = .ok info ∧
      Run.run (Event.step World.acceptAll World.stack) listed info = .ok t ∧
      (registered (World.str [0x7a]) listed).length = t.el_size.toNat ∧ kept 100 64 listed t = [128, 64, 200] :=
    ⟨_, _, rfl, rfl, rfl, rfl⟩
  obtain ⟨m, m', closed, hheap, -, hclose, hlive, hagain⟩ :=
    close_frees 100 hinit listed (listed_fresh hinit) hrun hfull
  exact ⟨info, t, m, m', hinit, hrun, hheap, hclose, hsizes ▸ hlive, hagain⟩

end ZdcPoc.B
