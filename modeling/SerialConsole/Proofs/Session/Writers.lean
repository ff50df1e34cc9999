import SerialConsole.Proofs.Session.Sends

set_option autoImplicit false

/-!
# The row for the writer lock

Who waits to write does so in a session that is connected, or closing with the closing task last in
the row. That is `Fenced`, and it keeps a send from waiting until the next connection. A send in the
row always comes to its end if devices answer, `Reachable.send_ends`: the induction is on those who
wait before it.
-/
namespace SerialConsole.Session

namespace World

variable {w v next : World} {me c : Caller} {course course' : Course} {events : List Event}
  {s : Session} {pause : Pause} {d : Handle} {data : Bytes}

/-! ## Who writes -/

theorem Sound.writing_holds (h : w.Sound course) (hasks : w.Asks c (.write d data)) :
    (w.tasks c).use .writer = .holds ∧
      ∃ told, w.tasks c = .rests (.askDevice (.write d data) (.writing d data)) told := by
  obtain ⟨point, told, htask⟩ := hasks
  rw [htask]
  rcases h.rests c _ told htask with haside | hholding
  · cases haside
    exact ⟨rfl, told, rfl⟩
  · cases hholding

theorem Sound.one_write (h : w.Sound course) {c' : Caller} {d' : Handle} {data' : Bytes}
    (hc : w.Asks c (.write d data)) (hc' : w.Asks c' (.write d' data')) : c = c' :=
  (h.locks .writer).unique c c' (h.writing_holds hc).1 (h.writing_holds hc').1

theorem Sound.sendTurn_call (h : w.Sound course) {name : LockName} {told : Bool}
    (htask : w.tasks c = .rests (.awaitTurn name (.sendTurn data)) told) :
    name = .writer ∧ ∃ id, c = .call id := by
  rcases h.rests c _ told htask with haside | hholding
  · cases haside
    exact ⟨rfl, _, rfl⟩
  · cases hholding

theorem Sound.mem_row (h : w.Sound course) {told : Bool}
    (htask : w.tasks c = .rests (.awaitTurn .writer (.sendTurn data)) told) :
    c ∈ (w.session.lock .writer).waiting :=
  ((h.locks .writer).waiting_iff c).2 ⟨told, Sound.use_awaited htask List.not_mem_nil⟩

/-! ## Who closes -/

theorem Sound.closeTurn_holds (h : w.Sound course) {name : LockName} {device : Option Handle}
    {told : Bool} (htask : w.tasks c = .rests (.awaitTurn name (.closeTurn device)) told) :
    name = .writer ∧ (w.tasks c).use .lifecycle = .holds ∧ w.session.phase = .closing := by
  rcases h.rests c _ told htask with haside | hholding
  · cases haside
  · cases hholding with
    | closeTurn hs =>
      rw [htask]
      exact ⟨rfl, rfl, hs.phase_eq⟩

theorem Sound.closing_holds (h : w.Sound course) {call : DeviceCall} {device : Option Handle}
    {told : Bool} (htask : w.tasks c = .rests (.askDevice call (.closing device)) told) :
    (w.tasks c).use .lifecycle = .holds ∧ w.session.phase = .closing := by
  rcases h.rests c _ told htask with haside | hholding
  · cases haside
  · cases hholding with
    | closing hs =>
      rw [htask]
      exact ⟨rfl, hs.phase_eq⟩

theorem ReadingOver.holds (h : w.ReadingOver c d events) (hsound : w.Sound course) :
    (w.tasks c).use .lifecycle = .holds := by
  cases h with
  | unread htask | inTime htask _ | joined htask _ =>
    rcases hsound.rests c _ _ htask with haside | hholding
    · cases haside
    · rw [htask, Status.use, if_pos hholding.locked]

/-! ## The row -/

/-- Nobody waits to write without a connection, who is to close the device is the last to wait, and
nobody waits any more while the device is being closed. -/
structure Fenced (w : World) : Prop where
  vacant : w.session.phase = .disconnected ∨ w.session.phase = .connecting →
    (w.session.lock .writer).waiting = []
  last : ∀ c device told, w.tasks c = .rests (.awaitTurn .writer (.closeTurn device)) told →
    ∃ before, (w.session.lock .writer).waiting = before ++ [c]
  closing : ∀ c call device told, w.tasks c = .rests (.askDevice call (.closing device)) told →
    (w.session.lock .writer).waiting = []

/-- A send comes to wait at a connection, and a disconnect after the end of reading. -/
theorem Deed.joins (hsound : w.Sound course) (h : w.Deed me events s pause)
    (hawaits : pause.awaits = some .writer) :
    (w.session.phase = .connected ∨ w.session.phase = .closing ∧
      (w.tasks me).use .lifecycle = .holds) ∧ s.phase = w.session.phase := by
  cases h with
  | queues hwants _ =>
    cases hawaits
    refine ⟨?_, rfl⟩
    cases hwants with
    | send _ _ hphase _ => exact Or.inl hphase
    | close hover hs => exact Or.inr ⟨hs.phase_eq, hover.holds hsound⟩
  | hears _ hhears => rcases hhears.pause_cases with rfl | rfl <;> cases hawaits
  | _ => cases hawaits

theorem Deed.of_closed (h : w.Deed me events s pause) (hbefore : w.session.phase = .closing)
    (hafter : s.phase ≠ .closing) :
    ∃ call device told, w.tasks me = .rests (.askDevice call (.closing device)) told := by
  cases h with
  | closed htask _ => exact ⟨_, _, _, htask⟩
  | requests _ hphase _ | unoffered _ hphase | unopened _ hphase =>
    rw [hbefore] at hphase
    cases hphase
  | connects _ hs =>
    have hphase := hs.phase_eq
    rw [hbefore] at hphase
    cases hphase
  | ends _ _ _ _ => exact absurd rfl hafter
  | hears _ hhears => exact absurd (hhears.alike.phase_eq.trans hbefore) hafter
  | _ => exact absurd hbefore hafter

/-- Who gets the lock in order to close the device leaves nobody behind. -/
theorem Fenced.alone (h : w.Fenced) (hsound : w.Sound course) {device : Option Handle}
    (hgets : w.Gets c .writer (.closeTurn device) events) :
    (w.session.lock .writer).waiting.erase c = [] := by
  cases hgets with
  | atOnce _ hfree =>
    rw [isFree, Bool.and_eq_true, List.isEmpty_iff] at hfree
    rw [hfree.2]
    rfl
  | inTurn htask =>
    obtain ⟨before, hrow⟩ := h.last c device true htask
    have hlock := hsound.locks .writer
    have hhead := (hlock.told c (Sound.use_awaited htask (by simp [Point.locks]))).2
    have hnodup := hlock.nodup
    rw [hrow] at hhead hnodup ⊢
    cases before with
    | nil => exact List.erase_cons_head c []
    | cons first rest =>
      cases hhead
      simp at hnodup

theorem Deed.of_closing {call : DeviceCall} {device : Option Handle}
    (h : w.Deed me events s (.askDevice call (.closing device))) :
    ∃ events, w.Gets me .writer (.closeTurn device) events := by
  cases h with
  | closes hgets _ => exact ⟨_, hgets⟩
  | hears _ hhears => rcases hhears.pause_cases with heq | heq <;> cases heq

theorem Changes.row_stays (h : w.Changes next me events s pause) {name : LockName}
    (hawaits : pause.awaits ≠ some name) :
    (next.session.lock name).waiting = (w.session.lock name).waiting.erase me := by
  rw [h.rows name, if_neg hawaits, List.append_nil]

/-- While another task closes the device nobody comes to wait. -/
theorem Deed.not_joins (hsound : w.Sound course) (h : w.Deed me events s pause) (hc : c ≠ me)
    (hholds : (w.tasks c).use .lifecycle = .holds) (hclosing : w.session.phase = .closing) :
    pause.awaits ≠ some .writer := by
  intro hawaits
  rcases (h.joins hsound hawaits).1 with hconnected | ⟨_, hme⟩
  · rw [hclosing] at hconnected
    cases hconnected
  · exact hc ((hsound.locks .lifecycle).unique c me hholds hme)

theorem Fenced.vacant_does (h : w.Fenced) (hsound : w.Sound course)
    (hdeed : w.Deed me events s pause) (hchanges : w.Changes next me events s pause)
    (hvacant : s.phase = .disconnected ∨ s.phase = .connecting) :
    (next.session.lock .writer).waiting = [] := by
  have hnot : s.phase ≠ .connected ∧ s.phase ≠ .closing := by
    rcases hvacant with heq | heq <;> rw [heq] <;> decide
  have hawaits : pause.awaits ≠ some .writer := by
    intro hawaits
    obtain ⟨hbefore, hsame⟩ := hdeed.joins hsound hawaits
    rw [hsame] at hnot
    rcases hbefore with heq | ⟨heq, _⟩
    · exact hnot.1 heq
    · exact hnot.2 heq
  rw [hchanges.row_stays hawaits]
  cases hbefore : w.session.phase with
  | disconnected => rw [h.vacant (Or.inl hbefore)]; rfl
  | connecting => rw [h.vacant (Or.inr hbefore)]; rfl
  | connected =>
    rcases hdeed.leads with hsame | hleads
    · exact absurd (hsame.trans hbefore) hnot.1
    · rw [hbefore] at hleads
      generalize s.phase = phase at hleads hnot
      cases hleads
      exact absurd rfl hnot.2
  | closing =>
    obtain ⟨call, device, told, htask⟩ := hdeed.of_closed hbefore hnot.2
    rw [h.closing me call device told htask]
    rfl

theorem Fenced.does (h : w.Fenced) (hsound : w.Sound course) (hdoes : w.Does me next) :
    next.Fenced := by
  obtain ⟨events, s, pause, hdeed, hchanges⟩ := hdoes
  have hphase : next.session.phase = s.phase := (phase_of_bare hchanges.bare :)
  refine ⟨fun hvacant => h.vacant_does hsound hdeed hchanges (hphase ▸ hvacant),
    fun c device told htask => ?_, fun c call device told htask => ?_⟩
  · by_cases hc : c = me
    · subst hc
      rw [hchanges.mine] at htask
      cases htask
      exact ⟨_, hchanges.rows .writer⟩
    · obtain ⟨told', hbefore⟩ := hchanges.rested hsound hc htask
      obtain ⟨_, hholds, hclosing⟩ := hsound.closeTurn_holds hbefore
      obtain ⟨before, hlast⟩ := h.last c device told' hbefore
      rw [hchanges.row_stays (hdeed.not_joins hsound hc hholds hclosing), hlast]
      by_cases hmem : me ∈ before
      · exact ⟨before.erase me, List.erase_append_left [c] hmem⟩
      · refine ⟨before, ?_⟩
        rw [List.erase_append_right [c] hmem, List.erase_of_not_mem]
        rw [List.mem_singleton]
        exact fun heq => hc heq.symm
  · by_cases hc : c = me
    · subst hc
      rw [hchanges.mine] at htask
      cases htask
      obtain ⟨_, hgets⟩ := hdeed.of_closing
      rw [hchanges.row_stays nofun]
      exact h.alone hsound hgets
    · obtain ⟨told', hbefore⟩ := hchanges.rested hsound hc htask
      obtain ⟨hholds, hclosing⟩ := hsound.closing_holds hbefore
      rw [hchanges.row_stays (hdeed.not_joins hsound hc hholds hclosing),
        h.closing c call device told' hbefore]
      rfl

theorem fresh_fenced (log : Log.Ring) (closeTimeout : Double) :
    (fresh log closeTimeout).Fenced :=
  ⟨fun _ => rfl, fun _ _ _ => nofun, fun _ _ _ _ => nofun⟩

theorem Reachable.fenced (h : w.Reachable) : w.Fenced :=
  h.always fresh_fenced fun _ _ _ _ _ hsound hdoes hfenced => hfenced.does hsound hdoes

/-- A send that waits in a session that is not connected waits in one that is closing. -/
theorem Fenced.closing_of_waits (h : w.Fenced) (hsound : w.Sound course) {told : Bool}
    (htask : w.tasks c = .rests (.awaitTurn .writer (.sendTurn data)) told)
    (hphase : w.session.phase ≠ .connected) : w.session.phase = .closing := by
  have hmem := hsound.mem_row htask
  cases hbefore : w.session.phase with
  | disconnected =>
    rw [h.vacant (Or.inl hbefore)] at hmem
    cases hmem
  | connecting =>
    rw [h.vacant (Or.inr hbefore)] at hmem
    cases hmem
  | connected => exact absurd hbefore hphase
  | closing => rfl

/-! ## Coming to an end -/

theorem run_cons {m : Move} {moves : List Move} (hmove : w.move m = some next) :
    w.run (m :: moves) = next.run moves := by
  rw [run, List.foldlM_cons, hmove]
  rfl

theorem move_turn {name : LockName} {point : Point}
    (htask : w.tasks c = .rests (.awaitTurn name point) true) :
    w.move (.turn c) = some (w.goOn c point .turn) := by
  rw [move, htask]

theorem move_answer {call : DeviceCall} {point : Point} {told : Bool} {reply : Reply}
    (htask : w.tasks c = .rests (.askDevice call point) told) (hadmits : call.admits reply = true) :
    w.move (.answer c reply) =
      some ((w.happen [.answered c call reply]).goOn c point (.reply reply)) := by
  rw [move, htask]
  exact if_pos hadmits

theorem sendLocked_pause (data : Bytes) (s : Session) :
    (∃ result, (sendLocked data s).pause = .over result) ∨
      ∃ d, (sendLocked data s).pause = .askDevice (.write d data) (.writing d data) := by
  rw [sendLocked]
  split
  case h_1 d _ _ => exact Or.inr ⟨d, rfl⟩
  case h_2 => exact Or.inl ⟨_, rfl⟩

theorem Changes.frees (h : w.Changes next me events s pause) (hsound : w.Sound course)
    (hnext : next.Sound course') {name : LockName} (hme : (w.tasks me).use name = .holds)
    (hafter : name ∉ pause.locks) : (next.session.lock name).held = false := by
  cases hheld : (next.session.lock name).held with
  | false => rfl
  | true =>
    obtain ⟨c, hc⟩ := (hnext.locks name).held_iff.1 hheld
    obtain ⟨there, told, hrests, hlocks⟩ := Status.use_holds hc
    by_cases hcm : c = me
    · rw [hcm, h.mine] at hrests
      cases hrests
      exact absurd hlocks hafter
    · obtain ⟨told', hbefore⟩ := h.rested hsound hcm hrests
      have hholds : (w.tasks c).use name = .holds := by
        rw [hbefore, Status.use, if_pos hlocks]
      exact absurd ((hsound.locks name).unique c me hholds hme) hcm

theorem Changes.pause_eq {step : Step} (h : w.Changes (v.absorb me step) me events s pause) :
    pause = step.pause := by
  have hmine := h.mine.symm.trans (Quiet.tasks_absorb_me v me step)
  cases hmine
  rfl

/-- Where the others rest and who waits to write, when a task has done something. -/
structure Passes (w next : World) (me : Caller) : Prop where
  row : (next.session.lock .writer).waiting = (w.session.lock .writer).waiting.erase me
  rests : ∀ c pause told, c ≠ me → w.tasks c = .rests pause told →
    ∃ told, next.tasks c = .rests pause told

theorem Reachable.ends_write (h : w.Reachable) (hasks : w.Asks c (.write d data)) :
    ∃ next result, w.move (.answer c .done) = some next ∧
      next.tasks c = .rests (.over result) false ∧
      (next.session.lock .writer).held = false ∧ w.Passes next c := by
  obtain ⟨course, hsound⟩ := h.sound
  obtain ⟨hholds, told, htask⟩ := hsound.writing_holds hasks
  have hadmits : (DeviceCall.write d data).admits .done = true := rfl
  have hmove := move_answer htask hadmits
  obtain ⟨course', hnext⟩ := (h.move hmove).sound
  obtain ⟨events, s, pause, hdeed, hchanges⟩ := hsound.answer_does htask hadmits
  obtain rfl := hchanges.pause_eq
  refine ⟨_, _, hmove, hchanges.mine, hchanges.frees hsound hnext hholds List.not_mem_nil,
    hchanges.row_stays nofun, ?_⟩
  exact fun x pause told hx hrests => hchanges.rests hsound hx hrests

theorem Reachable.takes_turn (h : w.Reachable)
    (htask : w.tasks c = .rests (.awaitTurn .writer (.sendTurn data)) true) :
    ∃ next, w.move (.turn c) = some next ∧ w.Passes next c ∧
      ((∃ result, next.tasks c = .rests (.over result) false) ∨
        ∃ d, next.Asks c (.write d data)) := by
  obtain ⟨course, hsound⟩ := h.sound
  have hmove := move_turn htask
  obtain ⟨events, s, pause, hdeed, hchanges⟩ := hsound.turn_does htask
  have hcases : (∃ result, pause = .over result) ∨
      ∃ d, pause = .askDevice (.write d data) (.writing d data) := by
    rw [hchanges.pause_eq]
    exact sendLocked_pause data (w.session.takeTurn .writer c)
  refine ⟨_, hmove, ⟨hchanges.row_stays ?_, ?_⟩, ?_⟩
  · rcases hcases with ⟨result, rfl⟩ | ⟨d, rfl⟩ <;> exact nofun
  · exact fun x pause told hx hrests => hchanges.rests hsound hx hrests
  · rcases hcases with ⟨result, rfl⟩ | ⟨d, rfl⟩
    · exact Or.inl ⟨result, hchanges.mine⟩
    · exact Or.inr ⟨d, .writing d data, false, hchanges.mine⟩

/-- If somebody waits to write, the lock is free or somebody is writing. -/
theorem Sound.free_or_written (h : w.Sound course) (hfenced : w.Fenced)
    (hrow : (w.session.lock .writer).waiting ≠ []) :
    (w.session.lock .writer).held = false ∨ ∃ c d data, w.Asks c (.write d data) := by
  cases hheld : (w.session.lock .writer).held with
  | false => exact Or.inl rfl
  | true =>
    obtain ⟨c, hc⟩ := (h.locks .writer).held_iff.1 hheld
    obtain ⟨pause, told, htask, hlocks⟩ := Status.use_holds hc
    rcases h.rests c pause told htask with haside | hholding
    · cases haside with
      | @writing id d data => exact Or.inr ⟨_, d, data, _, told, htask⟩
      | _ => simp [Pause.locks, Pause.point?, Point.locks] at hlocks
    · cases hholding with
      | closing hs => exact absurd (hfenced.closing _ _ _ told htask) hrow
      | _ => simp [Pause.locks, Pause.point?, Point.locks] at hlocks

/-- The first to wait for a free lock has been told, and if a send waits behind it, it is a send. -/
theorem Sound.first_told (h : w.Sound course) (hfenced : w.Fenced)
    (hfree : (w.session.lock .writer).held = false) {first : Caller} {rest : List Caller}
    (hrow : (w.session.lock .writer).waiting = first :: rest) {told : Bool}
    (hmem : c ∈ first :: rest)
    (htask : w.tasks c = .rests (.awaitTurn .writer (.sendTurn data)) told) :
    ∃ data, w.tasks first = .rests (.awaitTurn .writer (.sendTurn data)) true := by
  have hlock := h.locks .writer
  have huse := hlock.woken first hfree (by rw [hrow]; rfl)
  obtain ⟨pause, hrests, hawaits⟩ := Status.use_waits huse
  rcases h.rests first pause true hrests with haside | hholding
  · cases haside with
    | sendTurn => exact ⟨_, hrests⟩
    | _ => cases hawaits
  · cases hholding with
    | closeTurn hs =>
      -- it is also the last to wait
      obtain ⟨before, hlast⟩ := hfenced.last _ _ true hrests
      have hnodup := hlock.nodup
      rw [hrow] at hlast hnodup
      cases before with
      | nil =>
        cases hlast
        cases List.mem_singleton.1 hmem
        rw [hrests] at htask
        cases htask
      | cons x xs =>
        cases hlast
        simp at hnodup
    | _ => cases hawaits

theorem Reachable.write_ends (h : w.Reachable) (hasks : w.Asks c (.write d data)) :
    ∃ moves v result told, w.run moves = some v ∧ v.tasks c = .rests (.over result) told := by
  obtain ⟨next, result, hmove, hover, _⟩ := h.ends_write hasks
  exact ⟨[.answer c .done], next, result, false, run_cons hmove, hover⟩

/-- A send that waits for its turn can come to its end: whoever writes is answered, then those who
wait before it have their turn. -/
theorem Reachable.send_ends (h : w.Reachable) {told : Bool}
    (htask : w.tasks c = .rests (.awaitTurn .writer (.sendTurn data)) told) :
    ∃ moves v result told, w.run moves = some v ∧ v.tasks c = .rests (.over result) told := by
  have hmem : c ∈ (w.session.lock .writer).waiting := by
    obtain ⟨_, hsound⟩ := h.sound
    exact hsound.mem_row htask
  generalize hrow : (w.session.lock .writer).waiting = row at hmem
  induction row generalizing w told with
  | nil => cases hmem
  | cons first rest ih =>
    obtain ⟨_, hsound⟩ := h.sound
    -- a world in which the lock is free and the same tasks wait
    have hfree : ∃ moves v told, w.run moves = some v ∧ v.Reachable ∧
        (v.session.lock .writer).held = false ∧
        (v.session.lock .writer).waiting = first :: rest ∧
        v.tasks c = .rests (.awaitTurn .writer (.sendTurn data)) told := by
      have hne : (w.session.lock .writer).waiting ≠ [] := by
        rw [hrow]
        exact List.cons_ne_nil first rest
      rcases hsound.free_or_written h.fenced hne with hfree | ⟨x, d, sent, hasks⟩
      · exact ⟨[], w, told, rfl, h, hfree, hrow, htask⟩
      · obtain ⟨v, _, hmove, _, hfree, hpasses⟩ := h.ends_write hasks
        obtain ⟨_, _, hwriting⟩ := hsound.writing_holds hasks
        have hxc : c ≠ x := by
          rintro rfl
          rw [htask] at hwriting
          cases hwriting
        have hout : x ∉ (w.session.lock .writer).waiting := by
          refine hsound.not_mem_row fun pause told hrests => ?_
          rw [hwriting] at hrests
          cases hrests
          exact nofun
        obtain ⟨told', hwaits⟩ := hpasses.rests c _ told hxc htask
        refine ⟨[.answer x .done], v, told', run_cons hmove, h.move hmove, hfree, ?_, hwaits⟩
        rw [hpasses.row, List.erase_of_not_mem hout, hrow]
    obtain ⟨moves, v, told', hrun, hv, hfree, hrow', htask'⟩ := hfree
    obtain ⟨_, hsound'⟩ := hv.sound
    obtain ⟨sent, hfirst⟩ := hsound'.first_told hv.fenced hfree hrow' hmem htask'
    obtain ⟨next, hmove, hpasses, hnext⟩ := hv.takes_turn hfirst
    have hreach := hv.move hmove
    suffices hends : ∃ more u result told,
        next.run more = some u ∧ u.tasks c = .rests (.over result) told by
      obtain ⟨more, u, result, told, hmore, hover⟩ := hends
      refine ⟨moves ++ .turn first :: more, u, result, told, ?_, hover⟩
      rw [run_append hrun, run_cons hmove, hmore]
    by_cases hc : c = first
    · subst hc
      rcases hnext with ⟨result, hover⟩ | ⟨d, hasks⟩
      · exact ⟨[], next, result, false, rfl, hover⟩
      · exact hreach.write_ends hasks
    · obtain ⟨told'', hwaits⟩ := hpasses.rests c _ told' hc htask'
      refine ih hreach hwaits ?_ ?_
      · rw [hpasses.row, hrow', List.erase_cons_head]
      · exact (List.mem_cons.1 hmem).resolve_left hc

end World

end SerialConsole.Session
