import Accord.Proofs.Switchboard.Lines

/-! # What a switchboard tells of its past

A switchboard has the records and the outboxes of its lines and no others, whatever was done with it
and in which order: lines that are stale, replaced, forgotten or hung up stay what they are. -/
namespace Accord
namespace Switchboard

/-! ## Records -/

/-- A switchboard that has the records and the outboxes of these lines. -/
structure Traced (s : Switchboard) (ls : List Line) : Prop where
  issued : s.directory.issued = ls.length
  numbers : ls.map (·.number) = List.range' 1 ls.length
  sorted : Keyed.Sorted s.directory.records
  recorded : ∀ peer c, Keyed.get? peer s.directory.records = some c ↔
    ∃ l ∈ ls, l.isRecorded = true ∧ l.peer = peer ∧ l.connection = c
  outboxes : ∀ number box, Keyed.get? number s.outboxes = some box ↔
    ∃ l ∈ ls, l.number = number ∧ l.outbox = box

namespace Traced

variable {s s' : Switchboard} {ls : List Line} {l : Line}

theorem nodup_numbers (h : Traced s ls) : (ls.map (·.number)).Nodup := by
  rw [h.numbers]
  exact List.nodup_range'

theorem eq_of_number (h : Traced s ls) {l' : Line} (hl : l ∈ ls) (hl' : l' ∈ ls)
    (hn : l.number = l'.number) : l = l' :=
  List.inj_on_of_nodup_map h.nodup_numbers hl hl' hn

theorem number_le (h : Traced s ls) (hl : l ∈ ls) : l.number ≤ ls.length := by
  have hmem : l.number ∈ List.range' 1 ls.length := by
    rw [← h.numbers]
    exact List.mem_map_of_mem hl
  rw [List.mem_range'_1] at hmem
  omega

theorem empty : Traced Switchboard.empty [] := by
  refine ⟨rfl, rfl, List.Pairwise.nil, ?_, ?_⟩
  · intro peer c
    simp [Switchboard.empty, Directory.empty, Keyed.get?]
  · intro number box
    simp [Switchboard.empty, Keyed.get?]

theorem records_register (h : Traced s ls) (peer p : MemberId) (c : Connection) :
    Keyed.get? p (s.register peer).2.directory.records = some c ↔
      (∃ old, Keyed.get? p s.directory.records = some old ∧
        (Act.register peer).keep? p old = some c) ∨
      ∃ l ∈ lines ls.length [.register peer], l.peer = p ∧ l.connection = c := by
  have hrecords : (s.register peer).2.directory.records =
      Keyed.put peer ⟨ls.length + 1, true⟩ s.directory.records := by
    rw [← h.issued]
    rfl
  rw [hrecords]
  by_cases hp : p = peer
  · subst hp
    simp [Keyed.get?_put_self, Act.keep?, Act.releases, lines, Line.connection, Line.isLive]
  · have hother : peer ≠ p := Ne.symm hp
    simp [Keyed.get?_put_of_ne hp, Act.keep?, Act.releases, Act.hangsUp, lines, hother]

theorem records_remove (peer p : MemberId) (number : Nat) :
    Keyed.get? p (s.remove peer number).2.directory.records =
      (Keyed.get? p s.directory.records).bind ((Act.remove peer number).keep? p) := by
  by_cases hholds : s.directory.holds peer number = true
  · rw [remove_of_holds hholds]
    by_cases hp : p = peer
    · subst hp
      rw [Keyed.get?_erase_self]
      rw [Directory.holds] at hholds
      cases hget : Keyed.get? p s.directory.records with
      | none => rfl
      | some c =>
        rw [hget] at hholds
        have hn : number = c.number := (eq_of_beq hholds).symm
        simp [Act.keep?, Act.releases, hn]
    · rw [Keyed.get?_erase_of_ne hp]
      have hother : peer ≠ p := Ne.symm hp
      refine (Act.bind_keep? ?_).symm
      intro c _
      simp [Act.releases, Act.hangsUp, hother]
  · rw [remove_of_not_holds hholds]
    refine (Act.bind_keep? ?_).symm
    intro c hc
    have hother : peer = p → number ≠ c.number := by
      rintro rfl rfl
      exact hholds (by simp [Directory.holds, hc])
    simpa [Act.releases, Act.hangsUp] using hother

theorem records_hangUp (h : Traced s ls) (number : Nat) (p : MemberId) :
    Keyed.get? p (s.hangUp number).2.directory.records =
      (Keyed.get? p s.directory.records).bind ((Act.hangUp number).keep? p) := by
  rcases s.hangUp_cases number with ⟨box, -, -, hrun⟩ | ⟨hdead, hrun⟩
  · rw [hrun]
    exact get?_hangUp _ _ _ _
  · rw [hrun]
    refine (Act.bind_keep? ?_).symm
    intro c hc
    refine ⟨rfl, ?_⟩
    intro hend
    obtain ⟨l, hl, -, -, rfl⟩ := (h.recorded p c).mp hc
    have hbox := (h.outboxes number l.outbox).mpr ⟨l, hl, (eq_of_beq hend).symm, rfl⟩
    exact l.live_outbox.symm.trans (hdead _ hbox)

theorem records_run (h : Traced s ls) (act : Act) (peer : MemberId) (c : Connection) :
    Keyed.get? peer (act.run s).directory.records = some c ↔
      (∃ old, Keyed.get? peer s.directory.records = some old ∧ act.keep? peer old = some c) ∨
      ∃ l ∈ lines ls.length [act], l.peer = peer ∧ l.connection = c := by
  have hkept (hlines : lines ls.length [act] = []) (hrecord :
      Keyed.get? peer (act.run s).directory.records =
        (Keyed.get? peer s.directory.records).bind (act.keep? peer)) :
      Keyed.get? peer (act.run s).directory.records = some c ↔
        (∃ old, Keyed.get? peer s.directory.records = some old ∧ act.keep? peer old = some c) ∨
        ∃ l ∈ lines ls.length [act], l.peer = peer ∧ l.connection = c := by
    rw [hrecord, hlines, Option.bind_eq_some_iff]
    simp
  have hsent (hdirectory : (act.run s).directory = s.directory)
      (hnone : ∀ c : Connection, act.releases peer c.number = false ∧
        act.hangsUp c.number = false) :
      Keyed.get? peer (act.run s).directory.records =
        (Keyed.get? peer s.directory.records).bind (act.keep? peer) := by
    rw [hdirectory, Act.bind_keep?]
    intro c _
    simp [hnone c]
  cases act with
  | register p => exact h.records_register p peer c
  | remove p number => exact hkept rfl (records_remove p peer number)
  | dispatch p message =>
    refine hkept rfl (hsent ?_ fun _ => ⟨rfl, rfl⟩)
    rw [run_dispatch, directory_foldl_deposit]
  | broadcast message =>
    refine hkept rfl (hsent ?_ fun _ => ⟨rfl, rfl⟩)
    rw [run_broadcast, directory_foldl_deposit]
  | clear =>
    refine hkept rfl ?_
    cases Keyed.get? peer s.directory.records <;> rfl
  | hangUp number => exact hkept rfl (h.records_hangUp number peer)

/-! ## Deliveries -/

/-- A message goes to the open lines of those peers that it is sent to. -/
theorem mem_deliveries (h : Traced s ls) {act : Act} {d : Delivery} :
    d ∈ act.deliveries s ↔ ∃ l ∈ ls, l.isOpen = true ∧
      (act.messageTo? l.peer).map (Delivery.mk l.number l.peer) = some d := by
  have hopen (peer : MemberId) (message : Message) :
      (∃ c, Keyed.get? peer s.directory.records = some c ∧
        Directory.delivery? message (peer, c) = some d) ↔
      ∃ l ∈ ls, l.isOpen = true ∧ l.peer = peer ∧ ⟨l.number, peer, message⟩ = d := by
    constructor
    · rintro ⟨c, hc, hd⟩
      obtain ⟨l, hl, hrecorded, hpeer, rfl⟩ := (h.recorded peer c).mp hc
      obtain ⟨hlive, hd⟩ := delivery?_eq_some.mp hd
      refine ⟨l, hl, ?_, hpeer, hd⟩
      rw [Line.isOpen, hrecorded]
      exact hlive
    · rintro ⟨l, hl, hopen, hpeer, hd⟩
      obtain ⟨hrecorded, hlive⟩ := Bool.and_eq_true_iff.mp hopen
      exact ⟨l.connection, (h.recorded peer _).mpr ⟨l, hl, hrecorded, hpeer, rfl⟩,
        delivery?_eq_some.mpr ⟨hlive, hd⟩⟩
  cases act with
  | dispatch p message =>
    simp only [Act.deliveries, Directory.dispatch, Option.mem_toList, Option.bind_eq_some_iff,
      hopen, Act.messageTo?]
    refine exists_congr fun l => and_congr_right fun _ => and_congr_right fun _ => ?_
    by_cases hp : p = l.peer
    · simp [hp]
    · simp [hp, Ne.symm hp]
  | broadcast message =>
    have hentries : (∃ entry ∈ s.directory.records,
        Directory.delivery? message entry = some d) ↔
        ∃ peer c, Keyed.get? peer s.directory.records = some c ∧
          Directory.delivery? message (peer, c) = some d := by
      constructor
      · rintro ⟨⟨peer, c⟩, hmem, hd⟩
        exact ⟨peer, c, h.sorted.get?_of_mem hmem, hd⟩
      · rintro ⟨peer, c, hc, hd⟩
        exact ⟨(peer, c), Keyed.mem_of_get? hc, hd⟩
    simp only [Act.deliveries, Directory.broadcast, List.mem_filterMap, hentries, hopen,
      Act.messageTo?, Option.map_some, Option.some.injEq]
    constructor
    · rintro ⟨peer, l, hl, hopen, rfl, hd⟩
      exact ⟨l, hl, hopen, hd⟩
    · rintro ⟨l, hl, hopen, hd⟩
      exact ⟨l.peer, l, hl, hopen, rfl, hd⟩
  | _ => simp [Act.deliveries, Act.messageTo?]

theorem nodup_deliveries (h : Traced s ls) (act : Act) : (act.deliveries s).Nodup := by
  cases act with
  | dispatch p message =>
    rw [Act.deliveries]
    cases s.directory.dispatch p message <;> simp
  | broadcast message =>
    refine List.Nodup.filterMap ?_ (List.Nodup.of_map _ h.sorted.nodup)
    rintro ⟨p, number, live⟩ ⟨p', number', live'⟩ d hd hd'
    obtain ⟨rfl, rfl⟩ := delivery?_eq_some.mp hd
    obtain ⟨rfl, hsame⟩ := delivery?_eq_some.mp hd'
    cases hsame
    rfl
  | _ => exact List.nodup_nil

/-- Of each act a line takes what it sends to the peer, as long as the line is open. -/
theorem filter_deliveries (h : Traced s ls) (hl : l ∈ ls) (act : Act) :
    (act.deliveries s).filter (·.connection == l.number) =
      (if l.isOpen then (act.messageTo? l.peer).toList else []).map
        (Delivery.mk l.number l.peer) := by
  have hmem (d : Delivery) : d ∈ (act.deliveries s).filter (·.connection == l.number) ↔
      (if l.isOpen then (act.messageTo? l.peer).map (Delivery.mk l.number l.peer) else none) =
        some d := by
    rw [List.mem_filter, h.mem_deliveries, beq_iff_eq, Option.ite_none_right_eq_some]
    constructor
    · rintro ⟨⟨l', hl', hopen, hd⟩, hnumber⟩
      obtain ⟨message, -, rfl⟩ := Option.map_eq_some_iff.mp hd
      obtain rfl := h.eq_of_number hl hl' hnumber.symm
      exact ⟨hopen, hd⟩
    · rintro ⟨hopen, hd⟩
      refine ⟨⟨l, hl, hopen, hd⟩, ?_⟩
      obtain ⟨message, -, rfl⟩ := Option.map_eq_some_iff.mp hd
      rfl
  rw [eq_toList ((h.nodup_deliveries act).filter _) hmem]
  split
  · cases act.messageTo? l.peer <;> rfl
  · rfl

/-! ## Outboxes -/

theorem outboxes_register (h : Traced s ls) (peer : MemberId) (number : Nat) (box : Outbox) :
    Keyed.get? number (s.register peer).2.outboxes = some box ↔
      (∃ l ∈ ls, l.number = number ∧ (l.extend (.register peer)).outbox = box) ∨
      ∃ l ∈ lines ls.length [.register peer], l.number = number ∧ l.outbox = box := by
  have hboxes : (s.register peer).2.outboxes =
      Keyed.put (ls.length + 1) ⟨true, []⟩ s.outboxes := by
    rw [← h.issued]
    rfl
  have hsame (l : Line) : (l.extend (.register peer)).outbox = l.outbox := by
    rw [Line.outbox_extend _ _ rfl]
    simp [Act.messageTo?]
  have hnew : (⟨ls.length + 1, peer, []⟩ : Line).outbox = ⟨true, []⟩ := rfl
  rw [hboxes]
  simp only [hsame, lines, List.mem_singleton, exists_eq_left, hnew]
  by_cases hn : number = ls.length + 1
  · subst hn
    rw [Keyed.get?_put_self, Option.some.injEq]
    constructor
    · intro hbox
      exact .inr ⟨rfl, hbox⟩
    · rintro (⟨l, hl, hnumber, -⟩ | ⟨-, hbox⟩)
      · have hle := h.number_le hl
        omega
      · exact hbox
  · rw [Keyed.get?_put_of_ne hn, h.outboxes]
    constructor
    · exact .inl
    · rintro (hold | ⟨hnumber, -⟩)
      · exact hold
      · exact absurd hnumber.symm hn

theorem outboxes_hangUp (h : Traced s ls) (number n : Nat) (box : Outbox) :
    Keyed.get? n (s.hangUp number).2.outboxes = some box ↔
      ∃ l ∈ ls, l.number = n ∧ (l.extend (.hangUp number)).outbox = box := by
  have hother (l : Line) (hn : l.number ≠ number) :
      (l.extend (.hangUp number)).outbox = l.outbox := by
    rw [Line.outbox_extend (.hangUp number) l (beq_eq_false_iff_ne.mpr hn.symm)]
    simp [Act.messageTo?]
  have hended (l : Line) (hn : l.number = number) :
      (l.extend (.hangUp number)).outbox = ⟨false, []⟩ :=
    Line.outbox_extend_of_hangsUp (.hangUp number) l (beq_iff_eq.mpr hn.symm)
  rcases s.hangUp_cases number with ⟨old, hold, -, hrun⟩ | ⟨hdead, hrun⟩
  · rw [hrun]
    by_cases hn : n = number
    · subst hn
      rw [Keyed.get?_put_self, Option.some.injEq]
      constructor
      · intro hbox
        obtain ⟨l, hl, hnumber, -⟩ := (h.outboxes n old).mp hold
        exact ⟨l, hl, hnumber, (hended l hnumber).trans hbox⟩
      · rintro ⟨l, -, hnumber, hbox⟩
        exact (hended l hnumber).symm.trans hbox
    · rw [Keyed.get?_put_of_ne hn, h.outboxes]
      refine exists_congr fun l => and_congr_right fun _ => and_congr_right fun hnumber => ?_
      rw [hother l (hnumber ▸ hn)]
  · rw [hrun, h.outboxes]
    refine exists_congr fun l => and_congr_right fun hl => and_congr_right fun _ => ?_
    by_cases hn : l.number = number
    · have hlive : l.isLive = false :=
        l.live_outbox.symm.trans (hdead _ ((h.outboxes number _).mpr ⟨l, hl, hn, rfl⟩))
      rw [hended l hn, Line.outbox, hlive]
      rfl
    · rw [hother l hn]

/-- The outboxes after an act that hangs up nobody and opens no line. -/
theorem outboxes_deposit (h : Traced s ls) {act : Act} (hend : ∀ number, act.hangsUp number = false)
    (hboxes : (act.run s).outboxes = ((act.deliveries s).foldl deposit s).outboxes)
    (number : Nat) (box : Outbox) : Keyed.get? number (act.run s).outboxes = some box ↔
      ∃ l ∈ ls, l.number = number ∧ (l.extend act).outbox = box := by
  have htaken {l : Line} (hl : l ∈ ls) : { l.outbox with
      messages := l.outbox.messages ++
        ((act.deliveries s).filter (·.connection == l.number)).map (·.message) } =
      (l.extend act).outbox := by
    rw [h.filter_deliveries hl, List.map_map, Line.outbox_extend _ _ (hend l.number)]
    simp [Function.comp_def]
  rw [hboxes, get?_foldl_deposit, Option.map_eq_some_iff]
  constructor
  · rintro ⟨old, hold, hbox⟩
    obtain ⟨l, hl, rfl, rfl⟩ := (h.outboxes number old).mp hold
    exact ⟨l, hl, rfl, (htaken hl).symm.trans hbox⟩
  · rintro ⟨l, hl, rfl, hbox⟩
    exact ⟨l.outbox, (h.outboxes _ _).mpr ⟨l, hl, rfl, rfl⟩, (htaken hl).trans hbox⟩

theorem outboxes_run (h : Traced s ls) (act : Act) (number : Nat) (box : Outbox) :
    Keyed.get? number (act.run s).outboxes = some box ↔
      (∃ l ∈ ls, l.number = number ∧ (l.extend act).outbox = box) ∨
      ∃ l ∈ lines ls.length [act], l.number = number ∧ l.outbox = box := by
  have hold (hlines : lines ls.length [act] = []) (hbox :
      Keyed.get? number (act.run s).outboxes = some box ↔
        ∃ l ∈ ls, l.number = number ∧ (l.extend act).outbox = box) :
      Keyed.get? number (act.run s).outboxes = some box ↔
        (∃ l ∈ ls, l.number = number ∧ (l.extend act).outbox = box) ∨
        ∃ l ∈ lines ls.length [act], l.number = number ∧ l.outbox = box := by
    rw [hbox, hlines]
    simp
  cases act with
  | register peer => exact h.outboxes_register peer number box
  | hangUp n => exact hold rfl (h.outboxes_hangUp n number box)
  | dispatch peer message =>
    exact hold rfl (h.outboxes_deposit (fun _ => rfl) (by rw [run_dispatch]) number box)
  | _ => exact hold rfl (h.outboxes_deposit (fun _ => rfl) rfl number box)

/-! ## Every act -/

theorem sorted_run (h : Traced s ls) (act : Act) :
    Keyed.Sorted (act.run s).directory.records := by
  cases act with
  | register peer => exact h.sorted.put peer _
  | remove peer number =>
    by_cases hholds : s.directory.holds peer number = true
    · rw [Act.run, remove_of_holds hholds]
      exact h.sorted.erase peer
    · rw [Act.run, remove_of_not_holds hholds]
      exact h.sorted
  | dispatch peer message =>
    rw [run_dispatch, directory_foldl_deposit]
    exact h.sorted
  | broadcast message =>
    rw [run_broadcast, directory_foldl_deposit]
    exact h.sorted
  | clear => exact List.Pairwise.nil
  | hangUp number =>
    rcases s.hangUp_cases number with ⟨box, -, -, hrun⟩ | ⟨-, hrun⟩
    · rw [Act.run, hrun, Keyed.Sorted, keys_hangUp]
      exact h.sorted
    · rw [Act.run, hrun]
      exact h.sorted

theorem issued_run (s : Switchboard) (act : Act) :
    (act.run s).directory.issued =
      s.directory.issued + (lines s.directory.issued [act]).length := by
  cases act with
  | register peer => rfl
  | remove peer number =>
    by_cases hholds : s.directory.holds peer number = true
    · rw [Act.run, remove_of_holds hholds]
      rfl
    · rw [Act.run, remove_of_not_holds hholds]
      rfl
  | dispatch peer message =>
    rw [run_dispatch, directory_foldl_deposit]
    rfl
  | broadcast message =>
    rw [run_broadcast, directory_foldl_deposit]
    rfl
  | clear => rfl
  | hangUp number =>
    rcases s.hangUp_cases number with ⟨box, -, -, hrun⟩ | ⟨-, hrun⟩
    · rw [Act.run, hrun]
      rfl
    · rw [Act.run, hrun]
      rfl

theorem isRecorded_of_mem_lines {issued : Nat} {act : Act} (hl : l ∈ lines issued [act]) :
    l.isRecorded = true := by
  cases act with
  | register peer =>
    obtain rfl := List.mem_singleton.mp hl
    rfl
  | _ => cases hl

/-- What one act does. -/
theorem run (h : Traced s ls) (act : Act) :
    Traced (act.run s) (ls.map (Line.extend act) ++ lines ls.length [act]) := by
  refine ⟨?_, ?_, h.sorted_run act, ?_, ?_⟩
  · rw [issued_run, h.issued, List.length_append, List.length_map]
  · have hsame : (ls.map (Line.extend act)).map (·.number) = List.range' 1 ls.length := by
      rw [List.map_map, ← h.numbers]
      rfl
    rw [List.map_append, hsame, number_lines, Nat.add_comm ls.length 1, List.range'_append_1,
      List.length_append, List.length_map]
  · intro peer c
    rw [h.records_run]
    constructor
    · rintro (⟨old, hold, hkept⟩ | ⟨l, hl, hpeer, hc⟩)
      · obtain ⟨l, hl, hrecorded, rfl, rfl⟩ := (h.recorded peer old).mp hold
        obtain ⟨hrecorded', hc⟩ := (l.keep?_connection act c).mp ⟨hrecorded, hkept⟩
        exact ⟨l.extend act, List.mem_append_left _ (List.mem_map_of_mem hl), hrecorded', rfl, hc⟩
      · exact ⟨l, List.mem_append_right _ hl, isRecorded_of_mem_lines hl, hpeer, hc⟩
    · rintro ⟨l', hl', hrecorded, hpeer, hc⟩
      rcases List.mem_append.mp hl' with hold | hnew
      · obtain ⟨l, hl, rfl⟩ := List.mem_map.mp hold
        obtain ⟨hrecorded', hkept⟩ := (l.keep?_connection act c).mpr ⟨hrecorded, hc⟩
        subst hpeer
        exact .inl ⟨l.connection, (h.recorded _ _).mpr ⟨l, hl, hrecorded', rfl, rfl⟩, hkept⟩
      · exact .inr ⟨l', hnew, hpeer, hc⟩
  · intro number box
    rw [h.outboxes_run]
    simp only [List.mem_append, List.mem_map, or_and_right, exists_or, exists_exists_and_eq_and]
    rfl

end Traced

/-- What all acts do. -/
theorem traced_after (acts : List Act) : Traced (after acts) (lines 0 acts) := by
  induction acts using List.reverseRecOn with
  | nil => exact .empty
  | append_singleton acts act ih =>
    rw [after_concat, lines_concat, Nat.zero_add]
    exact ih.run act

/-- Every delivery is made to a line of its peer. -/
theorem line_of_mem_deliveries (acts : List Act) {d : Delivery}
    (hd : d ∈ deliveries empty acts) :
    ∃ l ∈ lines 0 acts, d.connection = l.number ∧ d.peer = l.peer := by
  induction acts using List.reverseRecOn with
  | nil => cases hd
  | append_singleton acts act ih =>
    rw [deliveries_concat] at hd
    rw [lines_concat]
    rcases List.mem_append.mp hd with hold | hnew
    · obtain ⟨l, hl, hdl⟩ := ih hold
      exact ⟨l.extend act, List.mem_append_left _ (List.mem_map_of_mem hl), hdl⟩
    · obtain ⟨l, hl, -, hmade⟩ := (traced_after acts).mem_deliveries.mp hnew
      obtain ⟨message, -, rfl⟩ := Option.map_eq_some_iff.mp hmade
      exact ⟨l.extend act, List.mem_append_left _ (List.mem_map_of_mem hl), rfl, rfl⟩

/-- A line gets what it takes, once each and in the order of sending. -/
theorem filter_deliveries_of_mem_lines (acts : List Act) {l : Line} (hl : l ∈ lines 0 acts) :
    (deliveries empty acts).filter (·.connection == l.number) =
      l.taken.map (Delivery.mk l.number l.peer) := by
  induction acts using List.reverseRecOn generalizing l with
  | nil => cases hl
  | append_singleton acts act ih =>
    have htraced := traced_after acts
    rw [deliveries_concat, List.filter_append]
    rw [lines_concat, Nat.zero_add] at hl
    rcases List.mem_append.mp hl with hold | hnew
    · obtain ⟨older, holder, rfl⟩ := List.mem_map.mp hold
      have hbefore := ih holder
      have hact := htraced.filter_deliveries holder act
      rw [Line.taken_extend, List.map_append]
      exact congrArg₂ (· ++ ·) hbefore hact
    · cases act with
      | register peer =>
        obtain rfl := List.mem_singleton.mp hnew
        refine List.append_eq_nil_iff.mpr ⟨List.filter_eq_nil_iff.mpr ?_, rfl⟩
        intro d hd hnumber
        obtain ⟨l, hl, hconnection, -⟩ := line_of_mem_deliveries acts hd
        have hle := htraced.number_le hl
        have hnext : d.connection = (lines 0 acts).length + 1 := eq_of_beq hnumber
        omega
      | _ => cases hnew

namespace Traced

variable {s : Switchboard} {ls : List Line}

theorem contains_iff (h : Traced s ls) (peer : MemberId) : s.directory.contains peer = true ↔
    ∃ l ∈ ls, l.peer = peer ∧ l.isRecorded = true := by
  rw [Directory.contains, Keyed.contains, Option.isSome_iff_exists]
  constructor
  · rintro ⟨c, hc⟩
    obtain ⟨l, hl, hrecorded, hpeer, -⟩ := (h.recorded peer c).mp hc
    exact ⟨l, hl, hpeer, hrecorded⟩
  · rintro ⟨l, hl, hpeer, hrecorded⟩
    exact ⟨l.connection, (h.recorded peer _).mpr ⟨l, hl, hrecorded, hpeer, rfl⟩⟩

theorem holds_iff (h : Traced s ls) (peer : MemberId) (number : Nat) :
    s.directory.holds peer number = true ↔
      ∃ l ∈ ls, l.peer = peer ∧ l.number = number ∧ l.isRecorded = true := by
  have hget : s.directory.holds peer number = true ↔
      ∃ c, Keyed.get? peer s.directory.records = some c ∧ c.number = number := by
    rw [Directory.holds]
    cases Keyed.get? peer s.directory.records <;> simp
  rw [hget]
  constructor
  · rintro ⟨c, hc, hn⟩
    obtain ⟨l, hl, hrecorded, hpeer, rfl⟩ := (h.recorded peer c).mp hc
    exact ⟨l, hl, hpeer, hn, hrecorded⟩
  · rintro ⟨l, hl, hpeer, hn, hrecorded⟩
    exact ⟨l.connection, (h.recorded peer _).mpr ⟨l, hl, hrecorded, hpeer, rfl⟩, hn⟩

/-- A broadcast counts the open lines. -/
theorem broadcast_eq (h : Traced s ls) (message : Message) :
    (s.broadcast message).1 = (ls.filter Line.isOpen).length := by
  have hnodup : ((ls.filter Line.isOpen).map fun l =>
      Delivery.mk l.number l.peer message).Nodup := by
    refine List.Nodup.of_map Delivery.connection ?_
    rw [List.map_map]
    exact h.nodup_numbers.sublist (List.filter_sublist.map _)
  have hperm : ((Act.broadcast message).deliveries s).Perm
      ((ls.filter Line.isOpen).map fun l => Delivery.mk l.number l.peer message) := by
    rw [List.perm_ext_iff_of_nodup (h.nodup_deliveries _) hnodup]
    intro d
    rw [h.mem_deliveries]
    simp only [Act.messageTo?, Option.map_some, Option.some.injEq, List.mem_map, List.mem_filter,
      and_assoc]
  have hlength := hperm.length_eq
  rw [List.length_map] at hlength
  exact hlength

/-- A message to a peer is taken if the peer has an open line. -/
theorem dispatch_iff (h : Traced s ls) (peer : MemberId) (message : Message) :
    (s.dispatch peer message).1 = true ↔ ∃ l ∈ ls, l.peer = peer ∧ l.isOpen = true := by
  have hmade : (s.dispatch peer message).1 = true ↔
      ∃ d, d ∈ (Act.dispatch peer message).deliveries s := by
    simp [dispatch_fst, Option.isSome_iff_exists, Act.deliveries]
  simp only [hmade, h.mem_deliveries, Act.messageTo?]
  constructor
  · rintro ⟨d, l, hl, hopen, hd⟩
    by_cases hpeer : peer = l.peer
    · exact ⟨l, hl, hpeer.symm, hopen⟩
    · rw [if_neg hpeer] at hd
      cases hd
  · rintro ⟨l, hl, rfl, hopen⟩
    exact ⟨⟨l.number, l.peer, message⟩, l, hl, hopen, by simp⟩

end Traced

/-- Whatever is done with a switchboard: a peer is recorded exactly if its last registration has
been neither removed nor cleared since; a removal with another number does nothing; each connection
has got exactly the messages to its peer from its registration up to the end of its record or of its
receiving end, in their order and once each; and what is said of a message that is sent is how many
connections took it. -/
theorem switchboard_keeps_lines (acts : List Act) :
    let s := after acts
    let ls := lines 0 acts
    (∀ peer, s.directory.contains peer = true ↔ ∃ l ∈ ls, l.peer = peer ∧ l.isRecorded = true) ∧
    (∀ peer number,
      (s.remove peer number).1 = true ∧
        (∃ l ∈ ls, l.peer = peer ∧ l.number = number ∧ l.isRecorded = true) ∨
      s.remove peer number = (false, s) ∧
        ¬ ∃ l ∈ ls, l.peer = peer ∧ l.number = number ∧ l.isRecorded = true) ∧
    (∀ l ∈ ls, (deliveries empty acts).filter (·.connection == l.number) =
        l.taken.map (Delivery.mk l.number l.peer) ∧
      Keyed.get? l.number s.outboxes =
        some (if l.isLive then ⟨true, l.taken⟩ else ⟨false, []⟩)) ∧
    (∀ d ∈ deliveries empty acts, ∃ l ∈ ls, d.connection = l.number) ∧
    (∀ peer message,
      ((s.dispatch peer message).1 = true ↔ ∃ l ∈ ls, l.peer = peer ∧ l.isOpen = true) ∧
      (deliveries empty (acts ++ [.dispatch peer message])).length =
        (deliveries empty acts).length + (s.dispatch peer message).1.toNat) ∧
    (∀ message, (s.broadcast message).1 = (ls.filter Line.isOpen).length ∧
      (deliveries empty (acts ++ [.broadcast message])).length =
        (deliveries empty acts).length + (s.broadcast message).1) ∧
    ∀ peer, (s.register peer).1 = ls.length + 1 := by
  intro s ls
  have h : Traced s ls := traced_after acts
  refine ⟨h.contains_iff, ?_, ?_, ?_, ?_, ?_, ?_⟩
  · intro peer number
    by_cases hholds : s.directory.holds peer number = true
    · rw [remove_of_holds hholds]
      exact .inl ⟨rfl, (h.holds_iff peer number).mp hholds⟩
    · rw [remove_of_not_holds hholds]
      exact .inr ⟨rfl, fun hline => hholds ((h.holds_iff peer number).mpr hline)⟩
  · intro l hl
    exact ⟨filter_deliveries_of_mem_lines acts hl, (h.outboxes _ _).mpr ⟨l, hl, rfl, rfl⟩⟩
  · intro d hd
    obtain ⟨l, hl, hconnection, -⟩ := line_of_mem_deliveries acts hd
    exact ⟨l, hl, hconnection⟩
  · intro peer message
    refine ⟨h.dispatch_iff peer message, ?_⟩
    rw [deliveries_concat, List.length_append]
    exact congrArg ((deliveries empty acts).length + ·) (length_dispatch s peer message)
  · intro message
    refine ⟨h.broadcast_eq message, ?_⟩
    rw [deliveries_concat, List.length_append]
    rfl
  · intro peer
    exact congrArg (· + 1) h.issued

/-- A peer connects twice, the end of its first connection comes late, and the second one hangs
up; then another peer connects. -/
def reconnected : List Act :=
  [.register 2, .dispatch 2 (.applyEntry 1), .register 2, .remove 2 1, .broadcast (.applyEntry 2),
   .hangUp 2, .register 3, .broadcast (.applyEntry 3)]

theorem reconnected_keeps_lines :
    (after reconnected).directory.contains 2 = true ∧
    (after reconnected).remove 2 1 = (false, after reconnected) ∧
    Keyed.get? 1 (after reconnected).outboxes = some ⟨true, [.applyEntry 1]⟩ ∧
    (deliveries empty reconnected).filter (·.connection == 2) = [⟨2, 2, .applyEntry 2⟩] ∧
    ((after reconnected).dispatch 2 (.applyEntry 4)).1 = false ∧
    ((after reconnected).broadcast (.applyEntry 4)).1 = 1 := by
  obtain ⟨hcontains, hremove, hlines, -, -, hbroadcast, -⟩ := switchboard_keeps_lines reconnected
  have hfirst : (⟨1, 2, reconnected.drop 1⟩ : Line) ∈ lines 0 reconnected := .head _
  have hsecond : (⟨2, 2, reconnected.drop 3⟩ : Line) ∈ lines 0 reconnected := .tail _ (.head _)
  refine ⟨(hcontains 2).mpr ⟨_, hsecond, rfl, rfl⟩, ?_, (hlines _ hfirst).2, (hlines _ hsecond).1,
    rfl, (hbroadcast _).1⟩
  rcases hremove 2 1 with ⟨htrue, -⟩ | ⟨hstale, -⟩
  · cases htrue
  · exact hstale

end Switchboard
end Accord
