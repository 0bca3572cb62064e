import ZdcPoc.Parser
import ZdcPoc.States

/-!
# List responses

The node writes one record per entity, the controller reads them back. `ke_size` is one byte on the
way, and it is the largest keyexpr that the entity ever had.
-/

namespace ZdcPoc.B

open zdc_info_t

variable {z : Zenoh} {s : LcsfStack} {info : zdc_info_t} {e : zdc_entity_t} {i : Nat}

/-! ## Records -/

/-- What the controller has to print, when the first record starts at `curr_idx`. -/
def linesOf : Nat → List zdc_entity_t → List A.entity_line
  | _, [] => []
  | curr_idx, e :: es =>
    ⟨curr_idx, e.type.toUInt8, e.state.toUInt8, e.keyexpr.chars⟩ ::
      linesOf (curr_idx + e.record.length) es

theorem zdc_entity_t.Sound.record_length (h : e.Sound i) : e.record.length = 3 + e.ke_size := by
  rw [zdc_entity_t.record, List.length_append, h.bytes_length]
  rfl

theorem zdc_entity_t.Sound.bytes_eq (h : e.Sound i) : ∃ tail, e.bytes = e.keyexpr.bytes ++ tail := by
  have hstr := h.string
  rw [h.ofBytes] at hstr
  exact Block.str_ofBytes hstr

theorem chars_of_bytes (h : e.Sound i) : e.bytes.takeWhile (· ≠ 0) = e.keyexpr.chars := by
  obtain ⟨tail, htail⟩ := h.bytes_eq
  have hfree : ∀ b ∈ e.keyexpr.chars, decide (b ≠ 0) = true := by
    intro b hb
    rw [decide_eq_true_eq]
    rintro rfl
    exact e.keyexpr.nul_free hb
  rw [htail, CString.bytes, List.append_assoc, List.takeWhile_append_of_pos hfree]
  simp

/-! ## One record -/

theorem entity_step_bytes (e : zdc_entity_t) (pre rest : List UInt8) :
    A.byte (pre ++ (e.record ++ rest)) pre.length = .ok e.type.toUInt8 ∧
    A.byte (pre ++ (e.record ++ rest)) (pre.length + 1) = .ok e.state.toUInt8 ∧
    A.byte (pre ++ (e.record ++ rest)) (pre.length + 2) = .ok (UInt8.ofNat e.ke_size) := by
  simp [A.byte, zdc_entity_t.record, orFault]

theorem entity_step_shown (h : e.Sound i) (pre rest : List UInt8) :
    A.shown (pre ++ (e.record ++ rest)) (pre.length + 3) e.ke_size = .ok e.keyexpr.chars := by
  have hfield : ((pre ++ (e.record ++ rest)).drop (pre.length + 3)).take e.ke_size = e.bytes := by
    rw [List.drop_append, List.drop_of_length_le (by omega), List.nil_append, zdc_entity_t.record]
    simp [← h.bytes_length]
  simp only [A.shown, hfield, h.bytes_length, true_or, if_true, chars_of_bytes h]
  rfl

theorem entity_step_spec (h : e.Sound i) (pre rest : List UInt8) (hsize : e.ke_size ≤ 255)
    (hstate : e.StateKnown) :
    A.entity_step (pre ++ (e.record ++ rest)) pre.length =
      .ok (⟨pre.length, e.type.toUInt8, e.state.toUInt8, e.keyexpr.chars⟩,
        pre.length + e.record.length) := by
  obtain ⟨h1, h2, h3⟩ := entity_step_bytes e pre rest
  have hke : (UInt8.ofNat e.ke_size).toNat = e.ke_size := by
    rw [UInt8.toNat_ofNat', Nat.mod_eq_of_lt (by omega)]
  have htype := List.getElem?_eq_getElem (type_index e.type)
  have hst := List.getElem?_eq_getElem (state_index.mpr hstate)
  simp only [A.entity_step, h1, h2, h3, ok_bind, htype, hst, orFault_some, hke,
    entity_step_shown h pre rest, h.record_length, Nat.add_assoc]
  rfl

theorem entity_step_inv (e : zdc_entity_t) (pre rest : List UInt8) {line : A.entity_line} {next : Nat}
    (hstep : A.entity_step (pre ++ (e.record ++ rest)) pre.length = .ok (line, next)) :
    line.curr_idx = pre.length ∧ next = pre.length + 3 + e.ke_size % 256 ∧ e.StateKnown := by
  obtain ⟨h1, h2, h3⟩ := entity_step_bytes e pre rest
  have htype := List.getElem?_eq_getElem (type_index e.type)
  simp only [A.entity_step, h1, h2, h3, ok_bind, htype, orFault_some, UInt8.toNat_ofNat'] at hstep
  by_cases hstate : e.StateKnown
  · simp only [List.getElem?_eq_getElem (state_index.mpr hstate), orFault_some, ok_bind] at hstep
    obtain ⟨ke, -, hstep⟩ := Result.bind_ok hstep
    cases hstep
    exact ⟨rfl, rfl, hstate⟩
  · rw [← state_index] at hstate
    rw [List.getElem?_eq_none (by omega)] at hstep
    cases hstep

/-! ## The whole list -/

/-- No block is too long for its size byte, and every state is known. -/
def Readable (es : List zdc_entity_t) : Prop := ∀ e ∈ es, e.ke_size ≤ 255 ∧ e.StateKnown

theorem entity_loop_spec (es : List zdc_entity_t) (hs : ∀ e ∈ es, ∃ i, e.Sound i) (pre : List UInt8)
    (h : Readable es) :
    A.entity_loop (pre ++ es.flatMap zdc_entity_t.record) es.length pre.length =
      .ok (linesOf pre.length es, pre.length + (es.flatMap zdc_entity_t.record).length) := by
  induction es generalizing pre with
  | nil => rfl
  | cons e es ih =>
    obtain ⟨i, hi⟩ := hs e List.mem_cons_self
    obtain ⟨hsize, hstate⟩ := h e List.mem_cons_self
    have hrest := ih (fun e' he => hs e' (List.mem_cons_of_mem _ he)) (pre ++ e.record)
      fun e' he => h e' (List.mem_cons_of_mem _ he)
    rw [List.length_append, List.append_assoc] at hrest
    rw [List.flatMap_cons, List.length_cons, A.entity_loop, entity_step_spec hi pre _ hsize hstate,
      ok_bind]
    simp only [hrest, ok_bind, List.length_append, linesOf, Nat.add_assoc]
    rfl

theorem entity_step_idx {m : List UInt8} {idx next : Nat} {line : A.entity_line}
    (h : A.entity_step m idx = .ok (line, next)) : line.curr_idx = idx := by
  obtain ⟨type, -, h⟩ := Result.bind_ok h
  obtain ⟨state, -, h⟩ := Result.bind_ok h
  obtain ⟨ke_size, -, h⟩ := Result.bind_ok h
  obtain ⟨_, -, h⟩ := Result.bind_ok h
  obtain ⟨_, -, h⟩ := Result.bind_ok h
  obtain ⟨ke_suffix, -, h⟩ := Result.bind_ok h
  cases h
  rfl

theorem entity_loop_start {m : List UInt8} {n next off total : Nat} {es : List zdc_entity_t}
    (h : A.entity_loop m n next = .ok (linesOf off es, total)) (hn : n = es.length)
    (ht : total = off + (es.flatMap zdc_entity_t.record).length) : next = off := by
  subst hn
  cases es with
  | nil =>
    cases h
    simpa using ht
  | cons e es =>
    obtain ⟨line, _, _, hstep, -, hlines⟩ := A.entity_loop_cons h
    unfold linesOf at hlines
    rw [← entity_step_idx hstep, ← (List.cons.inj hlines).1]

theorem readable_of_loop (es : List zdc_entity_t) (hs : ∀ e ∈ es, ∃ i, e.Sound i) (pre : List UInt8)
    (h : A.entity_loop (pre ++ es.flatMap zdc_entity_t.record) es.length pre.length =
      .ok (linesOf pre.length es, pre.length + (es.flatMap zdc_entity_t.record).length)) :
    Readable es := by
  induction es generalizing pre with
  | nil => exact fun e he => absurd he List.not_mem_nil
  | cons e es ih =>
    obtain ⟨i, hi⟩ := hs e List.mem_cons_self
    rw [List.flatMap_cons, List.length_cons] at h
    obtain ⟨line, next, rest, hstep, hloop, hlines⟩ := A.entity_loop_cons h
    obtain ⟨-, hnext, hstate⟩ := entity_step_inv e pre _ hstep
    unfold linesOf at hlines
    obtain rfl := (List.cons.inj hlines).2
    rw [List.length_append, ← Nat.add_assoc] at hloop
    have hstart := entity_loop_start hloop rfl rfl
    have hsize : e.ke_size ≤ 255 := by
      rw [hi.record_length] at hstart
      omega
    rw [hstart, ← List.append_assoc, ← List.length_append] at hloop
    have hrest := ih (fun e' he => hs e' (List.mem_cons_of_mem _ he)) (pre ++ e.record) hloop
    exact List.forall_mem_cons.mpr ⟨⟨hsize, hstate⟩, hrest⟩

/-- The controller, on the payload of a list response, prints the table line by line, each line read
where its record was written, and stops at the end of the list. -/
def RoundTrips (info : zdc_info_t) (p : zdc_cmd_payload_t) : Prop :=
  A.zdcExecutelist_entities_resp (some p) = .ok (some (linesOf 0 info.entities, p.entity_listSize))

theorem list_reply (z : Zenoh) (hf : info.Full)
    (hfit : info.records.length ≤ 64 * info.el_size.toNat) :
    ∃ r info', execute z s .list_entities_req info = .ok (r, info') ∧
      (r = true ↔ s.Fits (listCmd info.records info.el_size.toNat) info.buff_size.toNat) ∧
      info'.SendCmdPayload.ptr = some info.records ∧
      info'.SendCmdPayload.entity_listSize = info.records.length ∧
      info'.SendCmdPayload.entity_nb = info.el_size.toNat := by
  obtain ⟨p, hptr, hsize, hnb, hexec⟩ := execute_list_spec (z := z) (s := s) hf hfit
  have hok := send_ok_iff (s := s) { info with SendCmdPayload := p }
    (listCmd info.records info.el_size.toNat)
  have hpay := send_payload s { info with SendCmdPayload := p }
    (listCmd info.records info.el_size.toNat)
  generalize send s (listCmd info.records info.el_size.toNat) _ = res at hexec hok hpay
  exact ⟨res.1, res.2, hexec, hok, by rw [hpay]; exact hptr, by rw [hpay]; exact hsize,
    by rw [hpay]; exact hnb⟩

theorem entities_sound (hf : info.Full) : ∀ e ∈ info.entities, ∃ i, e.Sound i := by
  intro e he
  obtain ⟨i, hi, rfl⟩ := List.mem_iff_getElem.mp he
  obtain ⟨c, hc, hce⟩ := hf.cell_of_lt hi
  exact ⟨i, hce ▸ (hf.sound i c hc).entity⟩

/-- The table round-trips exactly when no keyexpr block is longer than 255 bytes and every state is
known. -/
theorem round_trips_iff_readable (hreach : Reachable z s info)
    (hfit : info.records.length ≤ 64 * info.el_size.toNat) :
    ∃ r info', execute z s .list_entities_req info = .ok (r, info') ∧
      (RoundTrips info info'.SendCmdPayload ↔ Readable info.entities) := by
  have hf := hreach.served.full
  obtain ⟨r, info', hexec, -, hptr, hsize, hnb⟩ := list_reply (s := s) z hf hfit
  refine ⟨r, info', hexec, ?_⟩
  have hne : info.entities.length ≠ 0 := by
    obtain ⟨c, hc, -⟩ := hreach.served.channel
    have := hf.lt_of_cell hc
    rw [hf.entities_length]
    omega
  have hloop : RoundTrips info info'.SendCmdPayload ↔
      A.entity_loop info.records info.entities.length 0 =
        .ok (linesOf 0 info.entities, info.records.length) := by
    simp only [RoundTrips, A.zdcExecutelist_entities_resp, hptr, hsize, hnb, hne, if_false,
      orFault_some, ok_bind, ← hf.entities_length]
    constructor
    · intro h
      obtain ⟨out, hout, h⟩ := Result.bind_ok h
      cases h
      exact hout
    · intro h
      rw [h]
      rfl
  rw [hloop]
  constructor
  · intro h
    apply readable_of_loop info.entities (entities_sound hf) []
    rw [List.nil_append, List.length_nil, Nat.zero_add]
    exact h
  · intro h
    have := entity_loop_spec info.entities (entities_sound hf) [] h
    rwa [List.nil_append, List.length_nil, Nat.zero_add] at this

theorem round_trips_short : ∃ info, Reachable World.acceptAll World.stack info ∧
    ∃ r info', execute World.acceptAll World.stack .list_entities_req info = .ok (r, info') ∧
      RoundTrips info info'.SendCmdPayload := by
  obtain ⟨info, hsetup, h⟩ := setup_started World.acceptAll 128 (World.str [0x7a])
    [.sub true (World.str [0x61, 0x2f, 0x62]) none (.application 0)] (by decide)
  have hfit : info.records.length ≤ 64 * info.el_size.toNat := of_decide_eq_true (Result.of_map
    (f := fun info => decide (info.records.length ≤ 64 * info.el_size.toNat)) hsetup rfl)
  have hread := Result.of_map
    (f := fun info => info.entities.map fun e => (decide (e.ke_size ≤ 255), e.state))
    (b := [(true, 1), (true, 1)]) hsetup rfl
  obtain ⟨r, info', hexec, hiff⟩ := round_trips_iff_readable (s := World.stack) (.start h) hfit
  refine ⟨info, .start h, r, info', hexec, hiff.mpr fun e he => ?_⟩
  have hmem := List.mem_map_of_mem (f := fun e : zdc_entity_t => (decide (e.ke_size ≤ 255), e.state)) he
  rw [hread] at hmem
  simp only [List.mem_cons, List.not_mem_nil, or_false, or_self, Prod.mk.injEq, decide_eq_true_eq]
    at hmem
  exact ⟨hmem.1, (stateKnown_toInt8 (b := 1) hmem.2).mpr (by decide)⟩

set_option maxRecDepth 20000 in
/-- After a keyexpr of 300 bytes the controller reads the next record from inside that keyexpr. -/
theorem long_keyexpr_misread : ∃ info info',
    setup World.acceptAll 5 512 (World.str [0x7a])
      [.sub true (World.str (List.replicate 300 0x61)) none (.application 0),
        .pub true (World.str [0x62]) none, .pub true (World.str [0x62]) none,
        .pub true (World.str [0x62]) none, .pub true (World.str [0x62]) none] = .ok info ∧
    execute World.acceptAll World.stack .list_entities_req info = .ok (true, info') ∧
    A.zdcExecutelist_entities_resp (some info'.SendCmdPayload) = .error .badIndex :=
  ⟨_, _, rfl, rfl, rfl⟩

/-! ## What a response reveals -/

/-- What a client is meant to see of an entity. -/
def zdc_entity_t.view (e : zdc_entity_t) : zdc_type_e × Int8 × CString := (e.type, e.state, e.keyexpr)

def SameResponse (a b : Bool × zdc_info_t) : Prop :=
  a.1 = b.1 ∧ a.2.SendCmdPayload.ptr = b.2.SendCmdPayload.ptr

theorem record_of_block {e' : zdc_entity_t} {j : Nat} (h : e.Sound i) (h' : e'.Sound j)
    (hview : e.view = e'.view) : e.ke_suffix = e'.ke_suffix ↔ e.record = e'.record := by
  simp only [zdc_entity_t.view, Prod.mk.injEq] at hview
  obtain ⟨htype, hstate, -⟩ := hview
  constructor
  · intro hb
    have hbytes : e.bytes = e'.bytes := by rw [zdc_entity_t.bytes, hb, zdc_entity_t.bytes]
    have hsize : e.ke_size = e'.ke_size := by rw [h.size, h'.size, hb]
    simp only [zdc_entity_t.record, htype, hstate, hsize, hbytes]
  · intro hr
    simp only [zdc_entity_t.record, List.cons_append, List.nil_append, List.cons.injEq] at hr
    rw [h.ofBytes, h'.ofBytes, hr.2.2.2]

/-- Records of blocks of up to 255 bytes can be told apart in their concatenation. -/
theorem blocks_of_records {as bs : List zdc_entity_t} (ha : ∀ e ∈ as, ∃ i, e.Sound i)
    (hb : ∀ e ∈ bs, ∃ i, e.Sound i) (hview : as.map zdc_entity_t.view = bs.map zdc_entity_t.view)
    (hsmall : ∀ e ∈ as ++ bs, e.ke_size ≤ 255)
    (h : as.flatMap zdc_entity_t.record = bs.flatMap zdc_entity_t.record) :
    as.map zdc_entity_t.ke_suffix = bs.map zdc_entity_t.ke_suffix := by
  induction as generalizing bs with
  | nil =>
    rw [List.map_nil, eq_comm, List.map_eq_nil_iff] at hview
    rw [hview]
  | cons x as ih =>
    cases bs with
    | nil => simp at hview
    | cons y bs =>
      rw [List.map_cons, List.map_cons, List.cons.injEq] at hview
      obtain ⟨i, hx⟩ := ha x List.mem_cons_self
      obtain ⟨j, hy⟩ := hb y List.mem_cons_self
      have hxs := hsmall x (by simp)
      have hys := hsmall y (by simp)
      rw [List.flatMap_cons, List.flatMap_cons] at h
      have hthird := congrArg (fun l => l[2]?) h
      simp only [zdc_entity_t.record, List.cons_append, List.nil_append, List.getElem?_cons_succ,
        List.getElem?_cons_zero, Option.some.injEq] at hthird
      have hsize : x.ke_size = y.ke_size := by
        have := congrArg UInt8.toNat hthird
        rw [UInt8.toNat_ofNat', UInt8.toNat_ofNat'] at this
        omega
      have hlen : x.record.length = y.record.length := by
        rw [hx.record_length, hy.record_length, hsize]
      obtain ⟨hrecord, hrest⟩ := List.append_inj h hlen
      rw [List.map_cons, List.map_cons, (record_of_block hx hy hview.1).mpr hrecord,
        ih (fun e he => ha e (List.mem_cons_of_mem _ he)) (fun e he => hb e (List.mem_cons_of_mem _ he))
          hview.2 (fun e he => hsmall e (by
            rcases List.mem_append.mp he with he | he
            · exact List.mem_append_left _ (List.mem_cons_of_mem _ he)
            · exact List.mem_append_right _ (List.mem_cons_of_mem _ he))) hrest]

theorem records_of_blocks {as bs : List zdc_entity_t} (ha : ∀ e ∈ as, ∃ i, e.Sound i)
    (hb : ∀ e ∈ bs, ∃ i, e.Sound i) (hview : as.map zdc_entity_t.view = bs.map zdc_entity_t.view)
    (h : as.map zdc_entity_t.ke_suffix = bs.map zdc_entity_t.ke_suffix) :
    as.flatMap zdc_entity_t.record = bs.flatMap zdc_entity_t.record := by
  induction as generalizing bs with
  | nil =>
    rw [List.map_nil, eq_comm, List.map_eq_nil_iff] at hview
    rw [hview]
  | cons x as ih =>
    cases bs with
    | nil => simp at hview
    | cons y bs =>
      rw [List.map_cons, List.map_cons, List.cons.injEq] at hview h
      obtain ⟨i, hx⟩ := ha x List.mem_cons_self
      obtain ⟨j, hy⟩ := hb y List.mem_cons_self
      rw [List.flatMap_cons, List.flatMap_cons, (record_of_block hx hy hview.1).mp h.1,
        ih (fun e he => ha e (List.mem_cons_of_mem _ he)) (fun e he => hb e (List.mem_cons_of_mem _ he))
          hview.2 h.2]

/-- The keyexpr blocks are the same, entity by entity, old bytes after the keyexpr included. -/
def SameBlocks (as bs : List zdc_entity_t) : Prop :=
  as.map zdc_entity_t.ke_suffix = bs.map zdc_entity_t.ke_suffix

/-- Two nodes that look the same answer a list request in the same way when their keyexpr blocks are the
same. Where the size byte tells how long the blocks are, that is the only case. -/
theorem same_response_of_same_blocks {za zb : Zenoh} {a b : zdc_info_t} (ha : Reachable za s a)
    (hb : Reachable zb s b) (hbuff : a.buff_size = b.buff_size)
    (hview : a.entities.map zdc_entity_t.view = b.entities.map zdc_entity_t.view)
    (hfita : a.records.length ≤ 64 * a.el_size.toNat)
    (hfitb : b.records.length ≤ 64 * b.el_size.toNat) :
    ∃ ra rb, execute za s .list_entities_req a = .ok ra ∧ execute zb s .list_entities_req b = .ok rb ∧
      (SameBlocks a.entities b.entities → SameResponse ra rb) ∧
      ((∀ e ∈ a.entities ++ b.entities, e.ke_size ≤ 255) →
        SameResponse ra rb → SameBlocks a.entities b.entities) := by
  have hfa := ha.served.full
  have hfb := hb.served.full
  obtain ⟨ra, ia, hea, hoka, hptra, -, -⟩ := list_reply (s := s) za hfa hfita
  obtain ⟨rb, ib, heb, hokb, hptrb, -, -⟩ := list_reply (s := s) zb hfb hfitb
  refine ⟨_, _, hea, heb, fun hblocks => ?_, fun hsmall hsame => ?_⟩
  · have hrecords : a.records = b.records :=
      records_of_blocks (entities_sound hfa) (entities_sound hfb) hview hblocks
    have hel : a.el_size.toNat = b.el_size.toNat := by
      have := congrArg List.length hview
      rwa [List.length_map, List.length_map, hfa.entities_length, hfb.entities_length] at this
    refine ⟨?_, by rw [hptra, hptrb, hrecords]⟩
    rw [hrecords, hel, hbuff, ← hokb] at hoka
    exact Bool.eq_iff_iff.mpr hoka
  · have hptr := hsame.2
    rw [hptra, hptrb, Option.some.injEq] at hptr
    exact blocks_of_records (entities_sound hfa) (entities_sound hfb) hview hsmall hptr

theorem same_response_renamed : ∃ fresh renamed a b,
    setup World.acceptAll 1 128 (World.str [0x7a]) [.sub true (World.str [0x61]) none (.application 0)] =
      .ok fresh ∧
    Run.run (execute World.acceptAll World.stack)
      [.set_entity_keyexpr 1 (World.str [0x62]), .set_entity_keyexpr 1 (World.str [0x61])] fresh =
      .ok renamed ∧
    execute World.acceptAll World.stack .list_entities_req fresh = .ok a ∧
    execute World.acceptAll World.stack .list_entities_req renamed = .ok b ∧ SameResponse a b := by
  obtain ⟨fresh, hfresh, h⟩ := setup_started World.acceptAll 128 (World.str [0x7a])
    [.sub true (World.str [0x61]) none (.application 0)] (by decide)
  obtain ⟨renamed, hboth⟩ : ∃ renamed, (setup World.acceptAll 1 128 (World.str [0x7a])
      [.sub true (World.str [0x61]) none (.application 0)] >>= fun info =>
        Run.run (execute World.acceptAll World.stack)
          [.set_entity_keyexpr 1 (World.str [0x62]), .set_entity_keyexpr 1 (World.str [0x61])] info) =
      .ok renamed := ⟨_, rfl⟩
  let seen (info : zdc_info_t) := (info.buff_size, info.records.length, info.el_size.toNat,
    info.entities.map zdc_entity_t.view, info.entities.map zdc_entity_t.ke_suffix)
  have hseen := (Result.of_map (f := seen) hfresh rfl).trans (Result.of_map (f := seen) hboth rfl).symm
  have hfit : fresh.records.length ≤ 64 * fresh.el_size.toNat := of_decide_eq_true (Result.of_map
    (f := fun info => decide (info.records.length ≤ 64 * info.el_size.toNat)) hfresh rfl)
  change setup World.acceptAll 1 128 _ _ = _ at hfresh
  rw [hfresh, ok_bind] at hboth
  simp only [seen, Prod.mk.injEq] at hseen
  obtain ⟨hbuff, hlen, hel, hview, hblocks⟩ := hseen
  obtain ⟨a, b, ha, hb, hsame, -⟩ := same_response_of_same_blocks (s := World.stack)
    (.start h) ((Reachable.start h).run hboth) hbuff hview hfit (by rw [← hlen, ← hel]; exact hfit)
  exact ⟨fresh, renamed, a, b, hfresh, hboth, ha, hb, hsame hblocks⟩

/-- A subscriber was renamed from `a` to `abc` and back. The response still has the `c`. -/
theorem old_keyexpr_revealed : ∃ fresh renamed a b,
    setup World.acceptAll 1 128 (World.str [0x7a]) [.sub true (World.str [0x61]) none (.application 0)] =
      .ok fresh ∧
    Run.run (execute World.acceptAll World.stack)
      [.set_entity_keyexpr 1 (World.str [0x61, 0x62, 0x63]), .set_entity_keyexpr 1 (World.str [0x61])]
      fresh = .ok renamed ∧
    fresh.entities.map zdc_entity_t.view = renamed.entities.map zdc_entity_t.view ∧
    execute World.acceptAll World.stack .list_entities_req fresh = .ok (true, a) ∧
    execute World.acceptAll World.stack .list_entities_req renamed = .ok (true, b) ∧
    a.SendCmdPayload.ptr = some [3, 1, 2, 0x7a, 0, 1, 1, 2, 0x61, 0] ∧
    b.SendCmdPayload.ptr = some [3, 1, 2, 0x7a, 0, 1, 1, 4, 0x61, 0, 0x63, 0] :=
  ⟨_, _, _, _, rfl, rfl, rfl, rfl, rfl, rfl, rfl⟩

end ZdcPoc.B
