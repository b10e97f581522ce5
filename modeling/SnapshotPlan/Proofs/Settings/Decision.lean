import SnapshotPlan.Proofs.Text.Unicode
import SnapshotPlan.Settings.Parameter

/-!
# A parameter is decided once

The environment may change at any time, and so may what an undecided parameter would be read as.  It
ends when a read finds a value or one is set: from then on every read returns that value, whatever
becomes of the environment, and nothing else can be set.

## What is here

* `Environment.Change`, `bytes?_change` — what becomes of a variable.  `text?_eq_some_iff`: when it
  is a text.
* `Parameter.Access`, `Parameter.perform` — the ways to get at a parameter, and what they reply.
  `perform_of_decided` and `perform_of_undecided`: the reply depends on the value if there is one,
  and on what would be found otherwise.
* `Parameter.Finds` — what an undecided parameter is read as.
* `Parameter.Situation.after` — any changes and accesses, one after another.
* `Parameter.decided_once` — **all of it in one statement.**
-/

set_option autoImplicit false

namespace SnapshotPlan

/-! ## Changes to the environment -/

namespace Environment

/-- A change to the environment. -/
inductive Change where
  | set (name text : String)
  | setBytes (name : String) (bytes : List UInt8)
  | unset (name : String)

/-- The environment after a change. -/
def change (e : Environment) : Change → Environment
  | .set name text => e.set name text
  | .setBytes name bytes => e.setBytes name bytes
  | .unset name => e.unset name

/-- The value of a variable after a change, given the value before. -/
def Change.bytes? (name : String) (before : Option (List UInt8)) : Change → Option (List UInt8)
  | .set changed text => if changed = name then some text.toUTF8.toList else before
  | .setBytes changed bytes => if changed = name then some bytes else before
  | .unset changed => if changed = name then none else before

theorem lookup_filter_ne {α : Type} {entries : List (String × α)} {name changed : String} :
    (entries.filter fun p => p.1 ≠ changed).lookup name =
      if changed = name then none else entries.lookup name := by
  induction entries with
  | nil => rw [List.filter_nil, List.lookup_nil, ite_self]
  | cons p entries ih =>
    obtain ⟨key, value⟩ := p
    by_cases hkey : key = changed
    · subst hkey
      rw [List.filter_cons_of_neg (by simp), ih, List.lookup_cons]
      by_cases hname : key = name
      · simp only [hname, if_true]
      · simp only [hname, if_false, beq_eq_false_iff_ne.2 (Ne.symm hname)]
    · rw [List.filter_cons_of_pos (by simpa using hkey), List.lookup_cons, ih, List.lookup_cons]
      by_cases hname : name = key
      · subst hname
        simp only [beq_self_eq_true, if_neg (Ne.symm hkey)]
      · simp only [beq_eq_false_iff_ne.2 hname]

theorem bytes?_unset (e : Environment) (changed name : String) :
    (e.unset changed).bytes? name = if changed = name then none else e.bytes? name :=
  lookup_filter_ne

theorem bytes?_setBytes (e : Environment) (changed : String) (bytes : List UInt8) (name : String) :
    (e.setBytes changed bytes).bytes? name =
      if changed = name then some bytes else e.bytes? name := by
  rw [bytes?, setBytes, List.lookup_cons]
  by_cases hname : name = changed
  · simp only [hname, beq_self_eq_true, if_true]
  · simp only [beq_eq_false_iff_ne.2 hname, if_neg (Ne.symm hname)]
    rw [← bytes?, bytes?_unset, if_neg (Ne.symm hname)]

/-- **A change concerns the variable that is changed**, and leaves the others alone. -/
theorem bytes?_change (e : Environment) (c : Change) (name : String) :
    (e.change c).bytes? name = c.bytes? name (e.bytes? name) := by
  cases c with
  | set changed text => exact bytes?_setBytes ..
  | setBytes changed bytes => exact bytes?_setBytes ..
  | unset changed => exact bytes?_unset ..

/-- **A variable is a text if its bytes write one.** -/
theorem text?_eq_some_iff {e : Environment} {name text : String} :
    e.text? name = some text ↔ e.bytes? name = some text.toUTF8.toList := by
  simp only [text?, Option.bind_eq_some_iff, Text.Utf8.decode?_eq_some_iff, exists_eq_right]

theorem text?_set (e : Environment) (changed text name : String) :
    (e.set changed text).text? name = if changed = name then some text else e.text? name := by
  rw [text?, set, bytes?_setBytes]
  split
  · exact Text.Utf8.decode?_eq_some_iff.2 rfl
  · rfl

end Environment

namespace Parameter

/-! ## Ways to get at a parameter

The five accesses differ in what they do with what is found: one returns a fault, two give up on
one.  Given the value of the parameter, or else what a read would find, each has one reply. -/

variable {α : Type}

/-- The ways to read a parameter.  The last two count on a value being found. -/
inductive Reading where
  | tryGet
  | get
  | getRef

/-- What may be asked of a parameter. -/
inductive Access (α : Type) where
  | isDecided
  | read (reading : Reading)
  | trySet (v : α)

/-- What may be replied. -/
inductive Reply (α : Type) where
  | flag (decided : Bool)
  | value (v : α)
  | done
  | refused (fault : ParameterFault)
  | panic (alarm : String)
  deriving DecidableEq

/-- The reply to a read, given what is found. -/
def Reading.reply : Reading → Except ParameterFault α → Reply α
  | _, .ok v => .value v
  | .tryGet, .error fault => .refused fault
  | .get, .error fault => .panic fault.alarm
  | .getRef, .error fault => .panic fault.alarm

/-- The reply to the access leaves the value decided: it was read, or it was set. -/
inductive Decides : Access α → Reply α → α → Prop
  | read (reading : Reading) (v : α) : Decides (.read reading) (.value v) v
  | set (v : α) : Decides (.trySet v) .done v

/-- The replies of a parameter with a value. -/
def settledReply (name : String) (v : α) : Access α → Reply α
  | .isDecided => .flag true
  | .read _ => .value v
  | .trySet _ => .refused (.alreadyInitialized name)

/-- The replies of an undecided parameter, given what a read finds. -/
def pendingReply (found : Except ParameterFault α) : Access α → Reply α
  | .isDecided => .flag false
  | .read reading => reading.reply found
  | .trySet _ => .done

/-- The value after an access to an undecided parameter, given what a read finds. -/
def chosen? (found : Except ParameterFault α) : Access α → Option α
  | .isDecided => none
  | .read _ => found.toOption
  | .trySet v => some v

/-- An access decides an undecided parameter if the reply says so. -/
theorem chosen?_eq_some_iff {found : Except ParameterFault α} {a : Access α} {v : α} :
    chosen? found a = some v ↔ Decides a (pendingReply found a) v := by
  constructor
  · intro h
    cases a with
    | isDecided => cases h
    | read reading =>
      cases found with
      | ok w => cases h; exact .read reading v
      | error fault => cases h
    | trySet w => cases h; exact .set v
  · intro h
    cases a with
    | isDecided => cases h
    | read reading =>
      cases found with
      | ok w => cases h; rfl
      | error fault => cases reading <;> cases h
    | trySet w => cases h; rfl

variable [Scalar α]

/-- Does what is asked.  Returns the reply and the parameter after. -/
def perform (p : Parameter α) (env : Environment) : Access α → Reply α × Parameter α
  | .isDecided => (.flag p.isDecided, p)
  | .read reading => (reading.reply (p.get env).1, (p.get env).2)
  | .trySet v =>
    match p.trySet v with
    | .ok p' => (.done, p')
    | .error fault => (.refused fault, p)

variable {p : Parameter α} {env : Environment}

/-- **A parameter with a value replies with it and keeps it**, in every environment. -/
theorem perform_of_decided {v : α} (h : p.value = some v) (a : Access α) :
    p.perform env a = (settledReply p.name v a, p) := by
  cases a with
  | isDecided => rw [perform, isDecided, h]; rfl
  | read reading => rw [perform, get, h]; rfl
  | trySet w => rw [perform, trySet, h]; rfl

/-- **An undecided parameter replies with what is found**, and takes up what is chosen. -/
theorem perform_of_undecided (h : p.value = none) (a : Access α) :
    p.perform env a =
      (pendingReply (p.consult env) a, { p with value := chosen? (p.consult env) a }) := by
  obtain ⟨name, default, value⟩ := p
  obtain rfl : value = none := h
  cases a with
  | isDecided => rfl
  | read reading =>
    rw [perform, get]
    cases consult (⟨name, default, none⟩ : Parameter α) env <;> rfl
  | trySet w => rfl

/-! ## What is found -/

/-- There is no text, or none that stands for a value. -/
def Unreadable (α : Type) [Scalar α] (bytes : Option (List UInt8)) : Prop :=
  ∀ text : String, bytes = some text.toUTF8.toList → (Scalar.read? text : Option α) = none

/-- What an undecided parameter is read as, given the bytes of its variable: as the text that they
write, if it stands for a value, and as the default otherwise. -/
inductive Finds (name default : String) (bytes : Option (List UInt8)) :
    Except ParameterFault α → Prop
  | environment {text : String} {v : α} (hbytes : bytes = some text.toUTF8.toList)
      (hread : Scalar.read? text = some v) : Finds name default bytes (.ok v)
  | fallback {v : α} (hbytes : Unreadable α bytes) (hread : Scalar.read? default = some v) :
      Finds name default bytes (.ok v)
  | unparsable (hbytes : Unreadable α bytes) (hread : (Scalar.read? default : Option α) = none) :
      Finds name default bytes (.error (.unparsable name default))

/-- **The environment and the default are consulted as they should be.** -/
theorem finds_consult (p : Parameter α) (env : Environment) :
    Finds p.name p.default (env.bytes? p.name) (p.consult env) := by
  rw [consult]
  rcases hfound : (env.text? p.name).bind (Scalar.read? (α := α)) with _ | v
  · have hnone : Unreadable α (env.bytes? p.name) := fun text hbytes => by
      rw [Environment.text?_eq_some_iff.2 hbytes] at hfound
      exact hfound
    rcases hdefault : (Scalar.read? p.default : Option α) with _ | v
    · exact .unparsable hnone hdefault
    · exact .fallback hnone hdefault
  · obtain ⟨text, ht, hread⟩ := Option.bind_eq_some_iff.1 hfound
    exact .environment (Environment.text?_eq_some_iff.1 ht) hread

/-! ## Histories

A history is cut where the parameter gets a value.  Before that point nothing is remembered and
only the environment matters; after it only the value does.  Each part has an induction of its
own. -/

/-- Something that happens: the environment is changed, or the parameter is accessed. -/
inductive Event (α : Type) where
  | change (c : Environment.Change)
  | access (a : Access α)

/-- The bytes of a variable after an event, given those before. -/
def Event.bytes? (name : String) (before : Option (List UInt8)) :
    Event α → Option (List UInt8)
  | .change c => c.bytes? name before
  | .access _ => before

/-- A parameter in an environment. -/
structure Situation (α : Type) where
  parameter : Parameter α
  env : Environment

namespace Situation

/-- Nothing has been read or set. -/
def start (name default : String) (env : Environment) : Situation α :=
  ⟨undecided name default, env⟩

/-- The reply to an access. -/
def reply (s : Situation α) (a : Access α) : Reply α := (s.parameter.perform s.env a).1

/-- What becomes of a situation. -/
def step (s : Situation α) : Event α → Situation α
  | .change c => { s with env := s.env.change c }
  | .access a => { s with parameter := (s.parameter.perform s.env a).2 }

/-- The situation after one event after another. -/
def after (s : Situation α) (events : List (Event α)) : Situation α := events.foldl step s

/-- None of the accesses leaves a value decided. -/
def Undecided (s : Situation α) (events : List (Event α)) : Prop :=
  ∀ before a later, events = before ++ .access a :: later →
    ∀ v, ¬ Decides a ((s.after before).reply a) v

variable {s : Situation α}

theorem undecided_nil (s : Situation α) : s.Undecided [] := fun before _ later h =>
  absurd h.symm (List.append_ne_nil_of_right_ne_nil before (List.cons_ne_nil _ later))

theorem undecided_cons {e : Event α} {events : List (Event α)} : s.Undecided (e :: events) ↔
    (∀ a, e = .access a → ∀ v, ¬ Decides a (s.reply a) v) ∧ (s.step e).Undecided events := by
  constructor
  · intro h
    exact ⟨fun a ha v => h [] a events (by rw [ha]; rfl) v,
      fun before a later heq v => h (e :: before) a later (by rw [heq]; rfl) v⟩
  · rintro ⟨hfirst, hrest⟩ before a later heq v
    cases before with
    | nil =>
      obtain ⟨he, -⟩ := List.cons.inj heq
      exact hfirst a he v
    | cons d before =>
      obtain ⟨rfl, hevents⟩ := List.cons.inj heq
      exact hrest before a later hevents v

theorem bytes?_step (s : Situation α) (e : Event α) (name : String) :
    (s.step e).env.bytes? name = e.bytes? name (s.env.bytes? name) := by
  cases e with
  | change c => exact Environment.bytes?_change ..
  | access a => rfl

/-- The environment after events is as the changes among them make it. -/
theorem bytes?_after (name : String) (events : List (Event α)) : ∀ s : Situation α,
    (s.after events).env.bytes? name = events.foldl (Event.bytes? name) (s.env.bytes? name) := by
  induction events with
  | nil => exact fun s => rfl
  | cons e events ih =>
    intro s
    rw [List.foldl_cons, ← bytes?_step]
    exact ih (s.step e)

/-! ### Once there is a value -/

theorem step_of_decided {v : α} (h : s.parameter.value = some v) (e : Event α) :
    (s.step e).parameter = s.parameter := by
  cases e with
  | change c => rfl
  | access a => rw [step, perform_of_decided h]

/-- **A value stays**, whatever happens. -/
theorem after_of_decided (events : List (Event α)) : ∀ {s : Situation α} {v : α},
    s.parameter.value = some v → (s.after events).parameter = s.parameter := by
  induction events with
  | nil => exact fun _ => rfl
  | cons e events ih =>
    intro s v h
    have hstep := step_of_decided h e
    exact (ih (hstep ▸ h : (s.step e).parameter.value = some v)).trans hstep

/-! ### As long as there is none -/

/-- An event that decides nothing leaves the parameter alone. -/
theorem step_of_undecided (h : s.parameter.value = none) (e : Event α)
    (he : ∀ a, e = .access a → ∀ v, ¬ Decides a (s.reply a) v) :
    (s.step e).parameter = s.parameter := by
  cases e with
  | change c => rfl
  | access a =>
    have hnone : chosen? (s.parameter.consult s.env) a = none :=
      Option.eq_none_iff_forall_ne_some.2 fun v hv => by
        refine he a rfl v ?_
        rw [reply, perform_of_undecided h]
        exact chosen?_eq_some_iff.1 hv
    rw [step, perform_of_undecided h, hnone, ← h]

/-- **Failed reads leave no trace**, and neither does anything else that decides nothing. -/
theorem after_of_undecided (events : List (Event α)) : ∀ {s : Situation α},
    s.parameter.value = none → s.Undecided events → (s.after events).parameter = s.parameter := by
  induction events with
  | nil => exact fun _ _ => rfl
  | cons e events ih =>
    intro s h hevents
    obtain ⟨hfirst, hrest⟩ := undecided_cons.1 hevents
    have hstep := step_of_undecided h e hfirst
    exact (ih (hstep ▸ h : (s.step e).parameter.value = none) hrest).trans hstep

/-! ### From the start -/

/-- The name never changes. -/
theorem name_step (s : Situation α) (e : Event α) :
    (s.step e).parameter.name = s.parameter.name := by
  cases hvalue : s.parameter.value with
  | some v => rw [step_of_decided hvalue]
  | none =>
    cases e with
    | change c => rfl
    | access a => rw [step, perform_of_undecided hvalue]

theorem name_after (events : List (Event α)) : ∀ s : Situation α,
    (s.after events).parameter.name = s.parameter.name := by
  induction events with
  | nil => exact fun s => rfl
  | cons e events ih => exact fun s => (ih (s.step e)).trans (name_step s e)

/-- What an access decides is the value afterwards. -/
theorem value_step_of_decides {a : Access α} {v : α} (h : Decides a (s.reply a) v) :
    (s.step (.access a)).parameter.value = some v := by
  cases hvalue : s.parameter.value with
  | some w =>
    rw [reply, perform_of_decided hvalue] at h
    rw [step_of_decided hvalue, hvalue]
    cases a <;> cases h
    rfl
  | none =>
    rw [reply, perform_of_undecided hvalue] at h
    rw [step, perform_of_undecided hvalue]
    exact chosen?_eq_some_iff.2 h

end Situation

/-- **A parameter is decided once.**  As soon as a read returns a value or one is set, every access
gets the reply of a parameter with that value, whatever happens in between.  Before, every access
gets the reply of an undecided parameter, for which a read consults the environment as it is then,
and after that the default. -/
theorem decided_once (name default : String) (env : Environment) :
    (∀ before later (a b : Access α) (v : α),
      Decides a (((Situation.start name default env).after before).reply a) v →
        ((Situation.start name default env).after (before ++ .access a :: later)).reply b =
          settledReply name v b) ∧
    ∀ events, (Situation.start (α := α) name default env).Undecided events →
      ∃ found, Finds name default (events.foldl (Event.bytes? name) (env.bytes? name)) found ∧
        ∀ b, ((Situation.start name default env).after events).reply b = pendingReply found b := by
  constructor
  · intro before later a b v h
    have hvalue := Situation.value_step_of_decides h
    have happ : (Situation.start name default env).after (before ++ .access a :: later) =
        (((Situation.start name default env).after before).step (.access a)).after later := by
      rw [Situation.after, List.foldl_append]
      rfl
    rw [happ, Situation.reply, Situation.after_of_decided later hvalue,
      perform_of_decided hvalue, Situation.name_step, Situation.name_after]
    rfl
  · intro events h
    have hparameter := Situation.after_of_undecided events rfl h
    have hbytes := Situation.bytes?_after name events (Situation.start (α := α) name default env)
    refine ⟨(undecided name default).consult
      ((Situation.start (α := α) name default env).after events).env, ?_, fun b => ?_⟩
    · exact hbytes ▸ finds_consult (undecided name default) _
    · rw [Situation.reply, hparameter]
      exact congrArg Prod.fst (perform_of_undecided rfl b)

/-- What happens to a byte whose default is none.  It cannot be read while its variable is not set
or, as with `300`, too much for a byte. -/
def limitHistory : List (Event UInt8) :=
  [.access (.read .get), .change (.set "LIMIT" "300"), .access (.read .tryGet),
    .change (.set "LIMIT" "7")]

theorem undecided_limitHistory :
    (Situation.start "LIMIT" "many" .empty).Undecided limitHistory := by
  have hget : (Situation.start "LIMIT" "many" .empty : Situation UInt8).reply (.read .get) =
      .panic (ParameterFault.unparsable "LIMIT" "many").alarm := by decide +kernel
  have htryGet : (((Situation.start "LIMIT" "many" .empty : Situation UInt8).step
      (.access (.read .get))).step (.change (.set "LIMIT" "300"))).reply (.read .tryGet) =
        .refused (.unparsable "LIMIT" "many") := by decide +kernel
  refine Situation.undecided_cons.2 ⟨fun a ha v => ?_, Situation.undecided_cons.2 ⟨nofun,
    Situation.undecided_cons.2 ⟨fun a ha v => ?_, Situation.undecided_cons.2 ⟨nofun,
      Situation.undecided_nil _⟩⟩⟩⟩
  · cases ha
    rw [hget]
    nofun
  · cases ha
    rw [htryGet]
    nofun

/-- At last the byte is read as `7`, and stays so, although the variable is unset and another value
is to be set. -/
theorem decided_once_byte :
    (Situation.start "LIMIT" "many" .empty).Undecided limitHistory ∧
      ((Situation.start "LIMIT" "many" .empty).after limitHistory).reply .isDecided = .flag false ∧
      Decides (.read .tryGet)
        (((Situation.start "LIMIT" "many" .empty).after limitHistory).reply (.read .tryGet)) 7 ∧
      ∀ b, ((Situation.start "LIMIT" "many" .empty).after (limitHistory ++
        .access (.read .tryGet) :: [.change (.unset "LIMIT"), .access (.trySet 5)])).reply b =
          settledReply "LIMIT" 7 b := by
  obtain ⟨hsettled, hpending⟩ := @decided_once UInt8 _ "LIMIT" "many" .empty
  obtain ⟨found, -, hreply⟩ := hpending limitHistory undecided_limitHistory
  have hread : ((Situation.start "LIMIT" "many" .empty).after limitHistory).reply
      (.read .tryGet) = .value 7 := by decide +kernel
  have hdecides : Decides (.read .tryGet)
      (((Situation.start "LIMIT" "many" .empty).after limitHistory).reply (.read .tryGet)) 7 := by
    rw [hread]
    exact .read .tryGet 7
  exact ⟨undecided_limitHistory, hreply .isDecided, hdecides, fun b => hsettled _ _ _ b 7 hdecides⟩

end Parameter
end SnapshotPlan
