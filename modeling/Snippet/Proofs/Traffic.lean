import Snippet.Proofs.HostFailure
import Snippet.Proofs.Replies
import Snippet.Proofs.RoundTrip
import Snippet.Service.Basic

/-!
# Calls in flight

A service answers many calls at once. Each of them has a reply channel of its own, on which its run
sends one text after the other; when the run is over, its replies are taken from the channel, it is
counted as a command, its replies are counted, and it is answered. In between, anything may happen
to the other calls (`Step`). Handling requests one after the other is one of the orders that this
allows (`exists_steps_handleAll`).

What a call is answered does not depend on the others: its replies are what its run sends, on
whatever channel, and it is answered as if there were no others (`Answers`). The answer holds all of
this, and its status is that of the kind as which it is counted (`Told`). At the end every call that
has arrived has been answered once, and the counters say how many answers there were of each kind
and how many replies they had (`requests_accounted`).

A run that has not ended when its time is up is answered without waiting for the rest of its
replies. So all this holds where no run takes too long.
-/

namespace Snippet.Service

/-! ### Calls -/

/-- A call of a command, with what the host says while it is answered. -/
structure Call where
  command : Command
  order : Order
  clock : Clock
  now : Instant
  traceId : String

/-- What a service does for a call, on a reply channel. -/
def Call.action (s : Service) (c : Call) (o : Outbox) : Response × Outbox :=
  Command.call s.settings (Context.ofBot s.bot s.accent c.order.invoker c.now c.traceId) c.clock
    c.command.name c.order.source o

/-- What a service answers to a call if there are no others. -/
def Call.completed (s : Service) (c : Call) : Completed :=
  s.complete c.clock c.now c.traceId c.command c.order

/-- A call has been answered as if there were no others: its replies are what its run sends, on
whatever channel. -/
structure Answers (s : Service) (call : Call) (c : Completed) : Prop where
  completed : c = call.completed s
  replies : ∃ texts, Outbox.Writes (call.action s) c.response texts ∧
    c.replies = texts.map Message.ofText

theorem sent_emitAll_fresh (texts : List String) :
    ((Outbox.fresh true).emitAll texts).drain.1 = texts.map Message.ofText :=
  (Outbox.emitAll_of_accepts rfl texts).trans (List.nil_append _)

/-- What a run sends on a channel of its own are the replies of the call. -/
theorem answers_of_writes {s : Service} {call : Call} {response : Response} {texts : List String}
    (h : Outbox.Writes (call.action s) response texts) :
    Answers s call ⟨call.command, response, texts.map Message.ofText⟩ where
  completed := by
    have hfresh := h (.fresh true)
    rw [Call.action] at hfresh
    rw [Call.completed, complete]
    dsimp only
    rw [hfresh, ← sent_emitAll_fresh]
  replies := ⟨texts, h, rfl⟩

theorem completed_of_writes {s : Service} {call : Call} {response : Response} {texts : List String}
    (h : Outbox.Writes (call.action s) response texts) :
    call.completed s = ⟨call.command, response, ((Outbox.fresh true).emitAll texts).drain.1⟩ := by
  rw [sent_emitAll_fresh]
  exact (answers_of_writes h).completed.symm

theorem exists_writes_action (s : Service) (call : Call) :
    ∃ response texts, Outbox.Writes (call.action s) response texts :=
  Command.exists_writes_call _ _ _ _ _

/-- What an answer tells: the result and the replies, these in their order, and by its status the
kind of the result. -/
structure Told (c : Completed) : Prop where
  body : ∃ j, c.answer.content = .json j ∧ j.get? "result" = some c.response.toJson ∧
    j.get? "replies" = some (.array (c.replies.map Message.toJson))
  ok : ∀ message, c.response = .ok message → c.verdict.label = "ok" ∧ c.answer.status = 200
  empty : c.response = .empty → c.verdict.label = "empty" ∧ c.answer.status = 200
  badRequest : ∀ reason, c.response = .badRequest reason →
    c.verdict.label = "bad_request" ∧ c.answer.status = 400
  status : c.answer.status = 400 ↔ c.verdict.label = "bad_request"

theorem told (c : Completed) : Told c where
  body := ⟨_, rfl, rfl, rfl⟩
  ok message h := by rw [Completed.answer, Completed.verdict, h]; exact ⟨rfl, rfl⟩
  empty h := by rw [Completed.answer, Completed.verdict, h]; exact ⟨rfl, rfl⟩
  badRequest reason h := by rw [Completed.answer, Completed.verdict, h]; exact ⟨rfl, rfl⟩
  status := by
    rw [Completed.answer]
    generalize c.verdict = verdict
    show verdict.status = 400 ↔ verdict.label = "bad_request"
    cases verdict <;> decide

/-! ### Steps -/

/-- How far a call has come. -/
inductive Stage where
  | running
  /-- Its replies have been taken from the channel. -/
  | taken (replies : List Message)
  /-- It has been counted as a command, and its replies have not been counted. -/
  | counted (replies : List Message)

/-- A call that is being answered. -/
structure Flight where
  call : Call
  /-- The number of its reply channel. -/
  channel : Nat
  /-- What its run comes to. -/
  response : Response
  /-- The texts that its run has still to send. -/
  unsent : List String
  stage : Stage

/-- A service with the calls that it answers. -/
structure Traffic where
  service : Service
  channels : List Outbox
  arrived : List Call
  flights : List Flight
  answered : List (Call × Completed)

/-- A service to which nothing has come yet. -/
def Traffic.start (s : Service) : Traffic :=
  ⟨s, [], [], [], []⟩

/-- Adds to the counter of the commands of a kind. -/
def countCommand (s : Service) (command : Command) (verdict : Verdict) : Service :=
  { s with counters.commands := s.counters.commands.add [command.name, verdict.label] 1 }

/-- Adds to the counter of the replies to a command. -/
def countReplies (s : Service) (command : Command) (replies : Nat) : Service :=
  { s with counters.replies := s.counters.replies.add [command.name] replies }

/-- Counting a command with its replies is counting first the one and then the others. -/
theorem count_eq (s : Service) (c : Completed) :
    s.count c = (s.countCommand c.command c.verdict).countReplies c.command c.replies.length :=
  rfl

/-- One thing that happens in a service. -/
inductive Step : Traffic → Traffic → Prop
  /-- A call arrives and gets a channel of its own. -/
  | arrive {t call response texts} (h : Outbox.Writes (call.action t.service) response texts) :
      Step t { t with
        channels := t.channels ++ [.fresh true]
        arrived := t.arrived ++ [call]
        flights := t.flights ++ [⟨call, t.channels.length, response, texts, .running⟩] }
  /-- A run sends its next text. -/
  | send {t} (before behind) {f text rest channel} (hflight : t.flights = before ++ f :: behind)
      (hchannel : t.channels[f.channel]? = some channel) (hunsent : f.unsent = text :: rest) :
      Step t { t with
        channels := t.channels.set f.channel (channel.emit text)
        flights := before ++ { f with unsent := rest } :: behind }
  /-- A run is over, or its time is up, and the replies are taken from its channel. -/
  | take {t} (before behind) {f channel} (hflight : t.flights = before ++ f :: behind)
      (hchannel : t.channels[f.channel]? = some channel) (hstage : f.stage = .running)
      (hover : f.unsent = [] ∨ f.call.clock.overran = true) :
      Step t { t with
        channels := t.channels.set f.channel channel.drain.2
        flights := before ++ { f with stage := .taken channel.drain.1 } :: behind }
  /-- A call is counted by its result. -/
  | count {t} (before behind) {f replies} (hflight : t.flights = before ++ f :: behind)
      (hstage : f.stage = .taken replies) :
      Step t { t with
        service := t.service.countCommand f.call.command (.ofResponse f.response)
        flights := before ++ { f with stage := .counted replies } :: behind }
  /-- The replies are counted, and the call is answered. Nobody looks at its channel any more. -/
  | answer {t} (before behind) {f replies} (hflight : t.flights = before ++ f :: behind)
      (hstage : f.stage = .counted replies) :
      Step t { t with
        service := t.service.countReplies f.call.command replies.length
        flights := before ++ behind
        answered := t.answered ++ [(f.call, ⟨f.call.command, f.response, replies⟩)] }

/-- Some things happen, one after the other. -/
inductive Steps (t : Traffic) : Traffic → Prop
  | refl : Steps t t
  | tail {t' t''} (h : Steps t t') (hstep : Step t' t'') : Steps t t''

variable {s : Service} {t t' : Traffic}

/-! ### Arrivals -/

/-- Every call that has arrived is being answered or has been answered, and no call is twice. -/
def Traffic.KeepsCalls (t : Traffic) : Prop :=
  (t.answered.map (·.1) ++ t.flights.map (·.call)).Perm t.arrived

theorem Step.keepsCalls (h : Step t t') (ht : t.KeepsCalls) : t'.KeepsCalls := by
  rw [Traffic.KeepsCalls] at ht ⊢
  match h with
  | .arrive _ =>
    rw [List.map_append, ← List.append_assoc]
    exact ht.append_right _
  | .send _ _ hflight _ _ | .take _ _ hflight _ _ _ | .count _ _ hflight _ =>
    rw [hflight, List.map_append, List.map_cons] at ht
    rwa [List.map_append, List.map_cons]
  | .answer _ _ hflight _ =>
    rw [hflight, List.map_append, List.map_cons] at ht
    rw [List.map_append, List.map_append, List.map_singleton, List.append_assoc,
      List.singleton_append]
    exact (List.perm_middle.symm.append_left _).trans ht

theorem Traffic.KeepsCalls.mem_arrived (h : t.KeepsCalls) {f : Flight} (hf : f ∈ t.flights) :
    f.call ∈ t.arrived :=
  h.subset (List.mem_append_right _ (List.mem_map_of_mem hf))

/-! ### Channels -/

/-- Where the texts are that a run sends: first on its channel or still to be sent, then in the
replies that were taken from there. -/
def Flight.Holds (channels : List Outbox) (texts : List String) (f : Flight) : Prop :=
  match f.stage with
  | .running => ∃ sent, texts = sent ++ f.unsent ∧
      channels[f.channel]? = some ((Outbox.fresh true).emitAll sent)
  | .taken replies | .counted replies => f.unsent = [] ∧ replies = texts.map Message.ofText

/-- A call is answered with what its own run sends. -/
def Flight.Sound (s : Service) (channels : List Outbox) (f : Flight) : Prop :=
  ∃ texts, Outbox.Writes (f.call.action s) f.response texts ∧ f.Holds channels texts

/-- The other channels are nothing to a call. -/
theorem Flight.Sound.of_channel {channels channels' : List Outbox} {f : Flight}
    (h : f.Sound s channels) (hchannel : channels'[f.channel]? = channels[f.channel]?) :
    f.Sound s channels' := by
  obtain ⟨texts, hwrites, hholds⟩ := h
  refine ⟨texts, hwrites, ?_⟩
  rw [Flight.Holds] at hholds ⊢
  rwa [hchannel]

theorem Flight.Sound.sent {channels : List Outbox} {channel : Outbox} {f : Flight}
    (h : f.Sound s channels) (hstage : f.stage = .running)
    (hchannel : channels[f.channel]? = some channel) :
    ∃ sent, Outbox.Writes (f.call.action s) f.response (sent ++ f.unsent) ∧
      channel = (Outbox.fresh true).emitAll sent := by
  obtain ⟨texts, hwrites, hholds⟩ := h
  rw [Flight.Holds, hstage] at hholds
  obtain ⟨sent, rfl, hsent⟩ := hholds
  exact ⟨sent, hwrites, Option.some.inj (hchannel.symm.trans hsent)⟩

/-- A run that has something left to send is still watched. -/
theorem Flight.Sound.running {channels : List Outbox} {f : Flight} (h : f.Sound s channels)
    (hunsent : f.unsent ≠ []) : f.stage = .running := by
  obtain ⟨texts, -, hholds⟩ := h
  rw [Flight.Holds] at hholds
  split at hholds
  · assumption
  · exact absurd hholds.1 hunsent
  · exact absurd hholds.1 hunsent

/-- Calls that are being answered, each on a channel of its own. -/
structure Apart (s : Service) (channels : List Outbox) (flights : List Flight) : Prop where
  sound : ∀ f ∈ flights, f.Sound s channels
  known : ∀ f ∈ flights, f.channel < channels.length
  own : (flights.map (·.channel)).Nodup

namespace Apart

variable {channels channels' : List Outbox} {flights before behind : List Flight} {f f' : Flight}

/-- A new call gets a new channel. -/
theorem arrive (h : Apart s channels flights) {o : Outbox} (hf : f.channel = channels.length)
    (hsound : f.Sound s (channels ++ [o])) : Apart s (channels ++ [o]) (flights ++ [f]) where
  sound := List.forall_mem_append.2 ⟨fun g hg ↦
    (h.sound g hg).of_channel (List.getElem?_append_left (h.known g hg)),
    List.forall_mem_singleton.2 hsound⟩
  known := by
    rw [List.length_append]
    refine List.forall_mem_append.2 ⟨fun g hg ↦ Nat.lt_succ_of_lt (h.known g hg), ?_⟩
    exact List.forall_mem_singleton.2 (hf ▸ Nat.lt_succ_self _)
  own := by
    rw [List.map_append]
    refine List.nodup_append.2 ⟨h.own, List.pairwise_singleton .., fun i hi j hj ↦ ?_⟩
    obtain ⟨g, hg, rfl⟩ := List.mem_map.1 hi
    obtain rfl := List.mem_singleton.1 hj
    show g.channel ≠ f.channel
    rw [hf]
    exact Nat.ne_of_lt (h.known g hg)

/-- Without one of the calls, the others are as they were. -/
theorem remove (h : Apart s channels (before ++ f :: behind)) :
    Apart s channels (before ++ behind) where
  sound g hg := h.sound g ((List.sublist_cons_self f behind).append_left before |>.subset hg)
  known g hg := h.known g ((List.sublist_cons_self f behind).append_left before |>.subset hg)
  own := h.own.sublist (((List.sublist_cons_self f behind).append_left before).map _)

theorem ne_channel (h : Apart s channels (before ++ f :: behind)) :
    ∀ g ∈ before ++ behind, g.channel ≠ f.channel := by
  have hown := h.own
  rw [List.map_append, List.map_cons, List.perm_middle.nodup_iff, ← List.map_append] at hown
  intro g hg heq
  exact (List.nodup_cons.1 hown).1 (heq ▸ List.mem_map_of_mem hg)

/-- While one call goes on, on its own channel, the others are as they were. -/
theorem replace (h : Apart s channels (before ++ f :: behind))
    (hlength : channels'.length = channels.length)
    (hothers : ∀ i, i ≠ f.channel → channels'[i]? = channels[i]?)
    (hchannel : f'.channel = f.channel) (hf' : f'.Sound s channels') :
    Apart s channels' (before ++ f' :: behind) where
  sound := by
    have hrest : ∀ g ∈ before ++ behind, g.Sound s channels' := fun g hg ↦
      (h.remove.sound g hg).of_channel (hothers _ (h.ne_channel g hg))
    obtain ⟨hbefore, hbehind⟩ := List.forall_mem_append.1 hrest
    exact List.forall_mem_append.2 ⟨hbefore, List.forall_mem_cons.2 ⟨hf', hbehind⟩⟩
  known := by
    obtain ⟨hbefore, hf⟩ := List.forall_mem_append.1 h.known
    obtain ⟨hf, hbehind⟩ := List.forall_mem_cons.1 hf
    rw [hlength]
    exact List.forall_mem_append.2 ⟨hbefore, List.forall_mem_cons.2 ⟨hchannel ▸ hf, hbehind⟩⟩
  own := by
    have hown := h.own
    rw [List.map_append, List.map_cons] at hown ⊢
    rwa [hchannel]

end Apart

/-- Calls do not get into each other's way. -/
structure Traffic.Separate (s : Service) (t : Traffic) : Prop where
  /-- Nothing of the service that a run can see changes. -/
  action : ∀ call : Call, call.action t.service = call.action s
  apart : Apart s t.channels t.flights
  answered : ∀ a ∈ t.answered, Answers s a.1 a.2

theorem Step.separate (h : Step t t') (ht : t.Separate s)
    (htime : ∀ f ∈ t.flights, f.call.clock.overran = false) : t'.Separate s := by
  obtain ⟨haction, hapart, hanswered⟩ := ht
  match h with
  | .arrive hwrites =>
    refine ⟨haction, hapart.arrive rfl ?_, hanswered⟩
    rw [haction] at hwrites
    exact ⟨_, hwrites, [], rfl, List.getElem?_concat_length⟩
  | .send (f := f) _ _ hflight hchannel hunsent =>
    rw [hflight] at hapart
    have hf : f.Sound s t.channels := hapart.sound f (by simp)
    have hstage := hf.running (by rw [hunsent]; exact List.cons_ne_nil _ _)
    obtain ⟨sent, hwrites, rfl⟩ := hf.sent hstage hchannel
    refine ⟨haction, hapart.replace List.length_set
      (fun i hi ↦ List.getElem?_set_ne hi.symm) rfl ⟨_, hwrites, ?_⟩, hanswered⟩
    rw [Flight.Holds]
    dsimp only
    rw [hstage]
    refine ⟨sent ++ [_], by rw [hunsent, List.append_assoc]; rfl, ?_⟩
    rw [List.getElem?_set_self (hapart.known f (by simp)), Outbox.emitAll_append]
    rfl
  | .take (f := f) _ _ hflight hchannel hstage hover =>
    rw [hflight] at hapart htime
    have hunsent : f.unsent = [] := hover.resolve_right (by rw [htime f (by simp)]; simp)
    obtain ⟨sent, hwrites, rfl⟩ := (hapart.sound f (by simp)).sent hstage hchannel
    refine ⟨haction, hapart.replace List.length_set
      (fun i hi ↦ List.getElem?_set_ne hi.symm) rfl ⟨_, hwrites, hunsent, ?_⟩, hanswered⟩
    rw [sent_emitAll_fresh, hunsent, List.append_nil]
  | .count (f := f) _ _ hflight hstage =>
    rw [hflight] at hapart
    obtain ⟨texts, hwrites, hholds⟩ := hapart.sound f (by simp)
    rw [Flight.Holds, hstage] at hholds
    exact ⟨haction, hapart.replace rfl (fun _ _ ↦ rfl) rfl ⟨texts, hwrites, hholds⟩, hanswered⟩
  | .answer (f := f) _ _ hflight hstage =>
    rw [hflight] at hapart
    obtain ⟨texts, hwrites, hholds⟩ := hapart.sound f (by simp)
    rw [Flight.Holds, hstage] at hholds
    obtain ⟨-, rfl⟩ := hholds
    exact ⟨haction, hapart.remove, List.forall_mem_append.2
      ⟨hanswered, List.forall_mem_singleton.2 (answers_of_writes hwrites)⟩⟩

/-! ### Counters -/

/-- A call that has been counted as a command. -/
def Flight.counted? (f : Flight) : Option Completed :=
  match f.stage with
  | .counted replies => some ⟨f.call.command, f.response, replies⟩
  | _ => none

/-- What has been counted as commands so far. -/
def Traffic.counted (t : Traffic) : List Completed :=
  t.answered.map (·.2) ++ t.flights.filterMap Flight.counted?

/-- The answers to a command, of one result. -/
def hasKind (command label : String) (c : Completed) : Bool :=
  c.command.name == command && c.verdict.label == label

theorem hasKind_iff {command label : String} {c : Completed} :
    hasKind command label c = true ↔ [command, label] = [c.command.name, c.verdict.label] := by
  simp only [hasKind, Bool.and_eq_true, beq_iff_eq, List.cons.injEq, and_true]
  exact ⟨fun ⟨h, h'⟩ ↦ ⟨h.symm, h'.symm⟩, fun ⟨h, h'⟩ ↦ ⟨h.symm, h'.symm⟩⟩

/-- The number of all replies in the answers to a command. -/
def repliesTo (command : String) : List Completed → Nat
  | [] => 0
  | c :: rest => (if c.command.name = command then c.replies.length else 0) + repliesTo command rest

theorem repliesTo_append (command : String) (cs cs' : List Completed) :
    repliesTo command (cs ++ cs') = repliesTo command cs + repliesTo command cs' := by
  induction cs with
  | nil => exact (Nat.zero_add _).symm
  | cons c rest ih => rw [List.cons_append, repliesTo, repliesTo, ih, Nat.add_assoc]

/-- The counters say what has happened so far. -/
structure Traffic.Accounted (t : Traffic) : Prop where
  commands : ∀ command label, t.service.counters.commands.count [command, label] =
    t.counted.countP (hasKind command label)
  replies : ∀ command, t.service.counters.replies.count [command] =
    repliesTo command (t.answered.map (·.2))

theorem Step.accounted (h : Step t t') (ht : t.Accounted) : t'.Accounted := by
  obtain ⟨hcommands, hreplies⟩ := ht
  -- what is counted changes only where a counter does
  have hsame {t'' : Traffic} (hservice : t''.service = t.service) (hans : t''.answered = t.answered)
      (hflights : t''.flights.filterMap Flight.counted? = t.flights.filterMap Flight.counted?) :
      t''.Accounted := by
    refine ⟨fun command label ↦ ?_, fun command ↦ ?_⟩
    · rw [hservice, Traffic.counted, hans, hflights]
      exact hcommands command label
    · rw [hservice, hans]
      exact hreplies command
  match h with
  | .arrive _ =>
    refine hsame rfl rfl ?_
    rw [List.filterMap_append]
    exact List.append_nil _
  | .send _ _ hflight _ _ =>
    refine hsame rfl rfl ?_
    rw [hflight, List.filterMap_append, List.filterMap_append]
    rfl
  | .take _ _ hflight _ hstage _ =>
    refine hsame rfl rfl ?_
    rw [hflight, List.filterMap_append, List.filterMap_append]
    simp only [List.filterMap_cons, Flight.counted?, hstage]
  | .count _ _ hflight hstage =>
    refine ⟨fun command label ↦ ?_, hreplies⟩
    have hcount := hcommands command label
    rw [Traffic.counted, hflight] at hcount
    simp only [Traffic.counted, List.filterMap_append, List.filterMap_cons, Flight.counted?, hstage,
      List.countP_append, List.countP_cons, hasKind_iff] at hcount ⊢
    rw [countCommand, Tally.count_add, hcount, Nat.add_assoc, Nat.add_assoc]
    rfl
  | .answer _ _ hflight hstage =>
    refine ⟨fun command label ↦ ?_, fun command ↦ ?_⟩
    · have hcount := hcommands command label
      rw [Traffic.counted, hflight] at hcount
      simp only [Traffic.counted, List.filterMap_append, List.filterMap_cons, Flight.counted?,
        hstage, List.countP_append, List.countP_cons, List.map_append, List.map_singleton,
        List.countP_nil] at hcount ⊢
      rw [countReplies, hcount]
      omega
    · rw [countReplies, Tally.count_add, hreplies, List.map_append, repliesTo_append]
      simp [repliesTo, eq_comm]

/-! ### Runs -/

theorem Steps.trans {t'' : Traffic} (h : Steps t t') (h' : Steps t' t'') : Steps t t'' := by
  induction h' with
  | refl => exact h
  | tail _ hstep ih => exact ih.tail hstep

/-- No arrival is forgotten. -/
theorem Step.arrived_subset (h : Step t t') : t.arrived ⊆ t'.arrived := by
  match h with
  | .arrive _ => exact List.subset_append_left _ _
  | .send .. | .take .. | .count .. | .answer .. => exact List.Subset.refl _

theorem Steps.keepsCalls (h : Steps (.start s) t) : t.KeepsCalls := by
  induction h with
  | refl => exact List.Perm.refl []
  | tail _ hstep ih => exact hstep.keepsCalls ih

theorem Steps.accounted (hs : s.counters = .none) (h : Steps (.start s) t) : t.Accounted := by
  induction h with
  | refl => exact ⟨fun _ _ ↦ by rw [Traffic.start, hs]; rfl, fun _ ↦ by rw [Traffic.start, hs]; rfl⟩
  | tail _ hstep ih => exact hstep.accounted ih

/-- As long as no run takes too long, calls do not get into each other's way. -/
theorem Steps.separate (h : Steps (.start s) t)
    (htime : ∀ call ∈ t.arrived, call.clock.overran = false) : t.Separate s := by
  induction h with
  | refl =>
    rw [Traffic.start]
    exact ⟨fun _ ↦ rfl, ⟨List.forall_mem_nil _, List.forall_mem_nil _, List.nodup_nil⟩,
      List.forall_mem_nil _⟩
  | tail h hstep ih =>
    have hbefore := fun call hcall ↦ htime call (hstep.arrived_subset hcall)
    exact hstep.separate (ih hbefore) fun f hf ↦ hbefore _ (h.keepsCalls.mem_arrived hf)

/-! ### Finishing a call -/

section Finish

variable {before behind : List Flight} {f : Flight} {channel : Outbox}

/-- A run sends what it has left to send, while nothing else happens. -/
theorem steps_sends (hflight : t.flights = before ++ f :: behind)
    (hchannel : t.channels[f.channel]? = some channel) :
    Steps t { t with
      channels := t.channels.set f.channel (channel.emitAll f.unsent)
      flights := before ++ { f with unsent := [] } :: behind } := by
  obtain ⟨call, number, response, unsent, stage⟩ := f
  induction unsent generalizing t channel with
  | nil =>
    have hset : t.channels.set number channel = t.channels := by
      obtain ⟨hlt, rfl⟩ := List.getElem?_eq_some_iff.1 hchannel
      exact List.set_getElem_self hlt
    rw [Outbox.emitAll_nil, hset, ← hflight]
    exact .refl
  | cons text rest ih =>
    obtain ⟨hlt, -⟩ := List.getElem?_eq_some_iff.1 hchannel
    have hsend := Step.send before behind hflight hchannel rfl
    have hrest := @ih { t with
        channels := t.channels.set number (channel.emit text)
        flights := before ++ ⟨call, number, response, rest, stage⟩ :: behind }
      (channel.emit text) rfl (List.getElem?_set_self hlt)
    rw [List.set_set] at hrest
    exact (Steps.refl.tail hsend).trans hrest

/-- A call is answered, while nothing else happens. -/
theorem steps_finish (hflight : t.flights = before ++ f :: behind) (hstage : f.stage = .running)
    (hchannel : t.channels[f.channel]? = some channel) {c : Completed}
    (hc : c = ⟨f.call.command, f.response, (channel.emitAll f.unsent).drain.1⟩) :
    Steps t { t with
      service := t.service.count c
      channels := t.channels.set f.channel (channel.emitAll f.unsent).drain.2
      flights := before ++ behind
      answered := t.answered ++ [(f.call, c)] } := by
  obtain ⟨hlt, -⟩ := List.getElem?_eq_some_iff.1 hchannel
  have hsent := steps_sends hflight hchannel
  have htaken := hsent.tail (.take before behind rfl (List.getElem?_set_self hlt) hstage (.inl rfl))
  have hcounted := htaken.tail (.count before behind rfl rfl)
  have hanswered := hcounted.tail (.answer before behind rfl rfl)
  rw [List.set_set] at hanswered
  rw [count_eq, hc]
  exact hanswered

end Finish

/-! ### Requests -/

/-- The command that a request asks for, and what it is to be called with. -/
def Request.asked? (r : Request) : Option (Command × Order) :=
  if r.method = "POST" ∧ r.isJson = true then
    match Route.ofPath? r.path with
    | some (.command command) => (Order.ofBody r.body).toOption.map (command, ·)
    | _ => none
  else none

section Handle

variable {request : Request} (clock : Command → Clock) (now : Instant) (traceId : String)

/-- A request that asks for a command is answered with the result of its call, which is counted. -/
theorem handle_of_asked {command : Command} {order : Order}
    (h : request.asked? = some (command, order)) :
    let c := Call.completed s ⟨command, order, clock command, now, traceId⟩
    s.handle clock now traceId request = (c.answer, s.count c) := by
  intro c
  rw [Request.asked?] at h
  split at h
  · next hpost =>
    obtain ⟨hmethod, hjson⟩ := hpost
    split at h
    · next found hpath =>
      obtain ⟨order, hbody, heq⟩ := Option.map_eq_some_iff.1 h
      cases heq
      cases hread : Order.ofBody request.body with
      | error _ =>
        rw [hread] at hbody
        cases hbody
      | ok order =>
        rw [hread] at hbody
        cases hbody
        simp [c, handle, hmethod, hpath, hjson, hread, Route.methods, Call.completed]
    · cases h
  · cases h

/-- Only a request that asks for a command changes anything. -/
theorem handle_of_not_asked (h : request.asked? = none) :
    (s.handle clock now traceId request).2 = s := by
  rw [handle]
  split
  · rfl
  split
  · rfl
  next route hpath =>
  split
  · rfl
  next hmethod =>
  split
  · rfl
  match route with
  | .health | .counters => rfl
  | .command command =>
    have hpost : request.method = "POST" := by simpa [Route.methods] using hmethod
    dsimp only
    split
    · rfl
    next hjson =>
    match hbody : Order.ofBody request.body with
    | .error _ => rfl
    | .ok order =>
      rw [Request.asked?, if_pos ⟨hpost, by simpa using hjson⟩, hpath, hbody] at h
      cases h

end Handle

/-- A request with what the host says while it is answered. -/
structure Visit where
  request : Request
  clock : Command → Clock
  now : Instant
  traceId : String

/-- The call that a request comes to. -/
def Visit.call? (v : Visit) : Option Call :=
  v.request.asked?.map fun (command, order) ↦ ⟨command, order, v.clock command, v.now, v.traceId⟩

/-- What has become of a service that has handled requests one after the other. -/
def handleAll (s : Service) : List Visit → Service
  | [] => s
  | v :: rest => (s.handle v.clock v.now v.traceId v.request).2.handleAll rest

/-- What a service that handles requests one after the other answers to those that ask for
commands. -/
def answersTo (s : Service) : List Visit → List (Call × Answer)
  | [] => []
  | v :: rest =>
    let (answer, s') := s.handle v.clock v.now v.traceId v.request
    (v.call?.map (·, answer)).toList ++ s'.answersTo rest

/-- The calls that have been answered so far, with the answers. -/
def Traffic.answers (t : Traffic) : List (Call × Answer) :=
  t.answered.map fun a ↦ (a.1, a.2.answer)

/-- Handling a request is one of the orders in which all this may happen. -/
theorem steps_handle (hquiet : t.flights = []) (v : Visit) :
    ∃ t', Steps t t' ∧ t'.flights = [] ∧
      t'.service = (t.service.handle v.clock v.now v.traceId v.request).2 ∧
      t'.arrived = t.arrived ++ v.call?.toList ∧
      t'.answers = t.answers ++ (v.call?.map
        (·, (t.service.handle v.clock v.now v.traceId v.request).1)).toList := by
  cases hasked : v.request.asked? with
  | none =>
    rw [handle_of_not_asked v.clock v.now v.traceId hasked, Visit.call?, hasked]
    exact ⟨t, .refl, hquiet, rfl, (List.append_nil _).symm, (List.append_nil _).symm⟩
  | some asked =>
    obtain ⟨command, order⟩ := asked
    have hhandled := handle_of_asked (s := t.service) v.clock v.now v.traceId hasked
    have hcall : v.call? = some ⟨command, order, v.clock command, v.now, v.traceId⟩ := by
      rw [Visit.call?, hasked]
      rfl
    dsimp only at hhandled
    rw [hhandled, hcall]
    generalize (⟨command, order, v.clock command, v.now, v.traceId⟩ : Call) = call
    obtain ⟨response, texts, hwrites⟩ := exists_writes_action t.service call
    have hcompleted := completed_of_writes hwrites
    generalize call.completed t.service = c at hcompleted ⊢
    have harrived := Steps.refl.tail (.arrive hwrites)
    have hfinished := harrived.trans
      (steps_finish rfl rfl List.getElem?_concat_length hcompleted)
    refine ⟨_, hfinished, ?_, rfl, rfl, ?_⟩
    · rw [hquiet]
      rfl
    · exact List.map_append

/-- A service that handles requests one after the other does nothing that is not a step. -/
theorem exists_steps_handleAll (hquiet : t.flights = []) (visits : List Visit) :
    ∃ t', Steps t t' ∧ t'.flights = [] ∧ t'.service = t.service.handleAll visits ∧
      t'.arrived = t.arrived ++ visits.filterMap Visit.call? ∧
      t'.answers = t.answers ++ t.service.answersTo visits := by
  induction visits generalizing t with
  | nil => exact ⟨t, .refl, hquiet, rfl, (List.append_nil _).symm, (List.append_nil _).symm⟩
  | cons v rest ih =>
    obtain ⟨t₁, hfirst, hquiet₁, hservice, harrived, hanswers⟩ := steps_handle hquiet v
    obtain ⟨t₂, hrest, hquiet₂, hlast, harrived₂, hanswers₂⟩ := ih hquiet₁
    refine ⟨t₂, hfirst.trans hrest, hquiet₂, ?_, ?_, ?_⟩
    · rw [hlast, hservice]
      rfl
    · rw [harrived₂, harrived, List.append_assoc, List.filterMap_cons]
      cases v.call? <;> rfl
    · rw [hanswers₂, hanswers, hservice, List.append_assoc]
      rfl

/-! ### Accounts -/

/-- A service that started as `s` has answered everything that has come to it: each call once,
whatever the order, and with exactly what the run of this call sends. Its counters say how many
answers there are for each command and kind of result, and how many replies they have. -/
structure Traffic.Balanced (s : Service) (t : Traffic) : Prop where
  calls : (t.answered.map (·.1)).Perm t.arrived
  answers : ∀ a ∈ t.answered, Answers s a.1 a.2 ∧ Told a.2
  commands : ∀ command label, t.service.counters.commands.count [command, label] =
    (t.answered.map (·.2)).countP (hasKind command label)
  replies : ∀ command, t.service.counters.replies.count [command] =
    repliesTo command (t.answered.map (·.2))

theorem Steps.balanced (hs : s.counters = .none) (h : Steps (.start s) t) (hdone : t.flights = [])
    (htime : ∀ call ∈ t.arrived, call.clock.overran = false) : t.Balanced s := by
  have hcalls := h.keepsCalls
  have haccounted := h.accounted hs
  rw [Traffic.KeepsCalls, hdone, List.map_nil, List.append_nil] at hcalls
  refine ⟨hcalls, fun a ha ↦ ⟨(h.separate htime).answered a ha, told a.2⟩,
    fun command label ↦ ?_, haccounted.replies⟩
  have hcommands := haccounted.commands command label
  rwa [Traffic.counted, hdone, List.filterMap_nil, List.append_nil] at hcommands

/-- **Requests are accounted for.** In whatever order calls are answered, at the end the counters
agree with the answers, each of which has the replies of its own call. So it is with the answers of
a service that handles requests one after the other: they are answers to such calls. -/
theorem requests_accounted (hs : s.counters = .none) :
    (∀ t, Steps (.start s) t → t.flights = [] →
      (∀ call ∈ t.arrived, call.clock.overran = false) → t.Balanced s) ∧
    ∀ visits : List Visit, (∀ v ∈ visits, ∀ call ∈ v.call?, call.clock.overran = false) →
      ∃ t : Traffic, t.Balanced s ∧ t.service = s.handleAll visits ∧
        t.arrived = visits.filterMap Visit.call? ∧ t.answers = s.answersTo visits := by
  refine ⟨fun t h hdone htime ↦ h.balanced hs hdone htime, fun visits htime ↦ ?_⟩
  obtain ⟨t, h, hdone, hservice, harrived, hanswers⟩ :=
    exists_steps_handleAll (t := .start s) rfl visits
  refine ⟨t, h.balanced hs hdone fun call hcall ↦ ?_, hservice, harrived, hanswers⟩
  rw [harrived] at hcall
  obtain ⟨v, hv, hcall⟩ := List.mem_filterMap.1 hcall
  exact htime v hv call hcall

/-- What the host says while nothing is late. -/
def punctual : Clock :=
  ⟨some 1, some 1, fun _ ↦ false, false, 0⟩

/-- A service that has not answered anything. -/
def idle : Service :=
  .start .standard ⟨1, "abyss", none⟩ none

/-- A call of the script `emitReply("hello")`. -/
def greeting : Call :=
  ⟨.eval, ⟨"emitReply ( \"hello\" ) ", Order.anonymous⟩, punctual, default, "greeting"⟩

/-- A call that fails. -/
def complaint : Call :=
  ⟨.fault, ⟨"", Order.anonymous⟩, punctual, default, "complaint"⟩

/-- The greeting is sent. -/
theorem exists_writes_greeting :
    ∃ response, Outbox.Writes (greeting.action idle) response ["hello"] := by
  obtain ⟨response, texts, hwrites⟩ := exists_writes_action idle greeting
  suffices htexts : texts = ["hello"] from ⟨response, htexts ▸ hwrites⟩
  let e : Script.Expr := .call Script.noSpan (.name Script.noSpan "emitReply")
    [.literal Script.noSpan (.string "hello")]
  have he : e.Printable := by
    simp only [e, Script.Expr.Printable, Script.Expr.PrintableAll, Script.Literal.Printable]
    decide
  have htext : Script.Spaced e.tokens greeting.order.source.toList := by
    have h : greeting.order.source.toList = e.tokens.flatMap (· ++ [' ']) := by decide +kernel
    rw [h]
    exact Script.spaced_flatMap _
  have hguard : Script.checkNesting greeting.order.source.toList = .ok () :=
    Script.checkNesting_eq_ok_iff.2 (by decide +kernel)
  obtain ⟨tree, hparse, hbare⟩ := Script.exists_parse_printed he htext hguard (by decide +kernel)
  obtain ⟨span, callee, args, rfl, hcallee, hargs⟩ := Script.Expr.exists_call_of_bare hbare
  obtain ⟨span', rfl⟩ := Script.Expr.exists_name_of_bare hcallee
  obtain ⟨arg, rfl, harg⟩ := Script.Expr.exists_singleton_of_bareAll hargs
  obtain ⟨span'', rfl⟩ := Script.Expr.exists_literal_of_bare harg
  have hchecked : ∃ warnings, Script.Checked.ofSource greeting.order.source = .ok
      ⟨⟨[], some (.call span (.name span' "emitReply") [.literal span'' (.string "hello")])⟩,
        warnings⟩ := by
    rw [Script.Checked.ofSource, hparse]
    exact ⟨_, rfl⟩
  obtain ⟨warnings, hscript⟩ := hchecked
  have hsent : (greeting.action idle (.fresh true)).2.sent.toList = [.ofText "hello"] := by
    have hcall (o : Outbox) : (greeting.action idle o).2 = (Evaluation.evaluate idle.settings
        (.ofBot idle.bot idle.accent Order.anonymous default "greeting") punctual
        greeting.order.source o).2 := rfl
    rw [hcall, (Evaluation.evaluate_of_ok hscript rfl).2]
    rfl
  rw [hwrites, Outbox.emitAll_of_accepts rfl] at hsent
  obtain ⟨text, rfl, htext⟩ := List.map_eq_singleton_iff.1 hsent
  exact congrArg ([·]) (Option.some.inj (congrArg Message.content htext))

/-- The greeting arrives first and is answered last. -/
theorem requests_accounted_overtaken :
    ∃ t, Steps (.start idle) t ∧ t.flights = [] ∧
      (∀ call ∈ t.arrived, call.clock.overran = false) ∧ t.arrived = [greeting, complaint] ∧
      t.answered.map (·.1) = [complaint, greeting] ∧
      t.service.counters.commands.count ["throwex", "bad_request"] = 1 ∧
      t.service.counters.replies.count ["eval"] = 1 := by
  obtain ⟨response, hgreeting⟩ := exists_writes_greeting
  have hcomplaint : Outbox.Writes (complaint.action idle) _ [] := fun _ ↦ rfl
  have hfirst : Steps (.start idle) _ := Steps.refl.tail (.arrive hgreeting)
  have hsecond := hfirst.tail (.arrive hcomplaint)
  have hovertaken := hsecond.trans (steps_finish rfl rfl rfl rfl)
  have hdone := hovertaken.trans (steps_finish (show _ = [] ++ _ :: [] from rfl) rfl rfl rfl)
  have htime : ∀ call ∈ [greeting, complaint], call.clock.overran = false := by
    simp [greeting, complaint, punctual]
  obtain ⟨-, -, hcommands, hreplies⟩ := (requests_accounted rfl).1 _ hdone rfl htime
  refine ⟨_, hdone, rfl, htime, rfl, rfl, ?_, ?_⟩
  · rw [hcommands]
    rfl
  · rw [hreplies]
    rfl

end Snippet.Service
