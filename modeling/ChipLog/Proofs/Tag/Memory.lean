/-
# What a tag cache remembers

One cache may be asked again and again, each time with an image and a place of its own: a list of
such `Look`s is its whole history.  Each look has an outcome on its own, which is a fault, a tag, or
that there is no tag.  Faults are not remembered, and the other two are, in the same way.

So everything hangs on the first look that does not fail.  The looks before it answer with their own
faults and leave nothing behind; it answers with its own outcome; and whatever is asked later on gets
the same answer (`TagCache.first_answer_is_kept`).  That later looks are not carried out at all can
be seen from the journal, which has no more to say than the first look that does not fail.
-/
import ChipLog.Tag.Cache

namespace ChipLog

namespace TagCache

/-! ## 1. Looks -/

/-- A look for a tag: in an image, at a place where there should be one. -/
structure Look where
  bytes : ByteArray
  offset : Option Nat
  deriving DecidableEq

variable {ι : Type}

namespace Look

/-- A look of somebody who remembers nothing. -/
def afresh (look : Look) : Logged ι (Except Fault (Option Tag)) :=
  Tag.lookUp look.bytes look.offset

/-- What the look comes to on its own. -/
def outcome (look : Look) : Except Fault (Option Tag) := (look.afresh : Logged Site _).value

/-- The look ends in a fault. -/
def Fails (look : Look) : Prop := ∃ fault, look.outcome = .error fault

/-- The outcome does not depend on how a journal names chips. -/
theorem value_afresh (look : Look) : (look.afresh : Logged ι _).value = look.outcome := by
  unfold outcome afresh Tag.lookUp
  cases Tag.find look.bytes look.offset <;> rfl

/-- A look that fails has nothing to report. -/
theorem Fails.events {look : Look} (h : look.Fails) : (look.afresh : Logged ι _).events = [] := by
  obtain ⟨fault, hfault⟩ := h
  rw [← @value_afresh Site] at hfault
  unfold afresh Tag.lookUp at hfault ⊢
  cases hfind : Tag.find look.bytes look.offset with
  | error _ => rfl
  | ok finding =>
    rw [hfind] at hfault
    cases hfault

end Look

/-! ## 2. One look with a cache -/

/-- What is remembered is the answer, and nothing is looked for. -/
theorem get_of_answer (answer : Option Tag) (look : Look) :
    ((⟨some answer⟩ : TagCache).get look.bytes look.offset : Logged ι _) =
      pure (.ok answer, ⟨some answer⟩) := rfl

/-- With nothing to remember the look is carried out, and remembered unless it fails. -/
theorem get_empty (look : Look) :
    (({} : TagCache).get look.bytes look.offset : Logged ι _).value =
        (match look.outcome with
        | .ok answer => (.ok answer, ⟨some answer⟩)
        | .error fault => (.error fault, {})) ∧
      (({} : TagCache).get look.bytes look.offset : Logged ι _).events =
        (look.afresh : Logged ι _).events := by
  rw [← @Look.value_afresh ι, Look.afresh]
  simp only [get, Logged.events_bind, Logged.value_bind]
  cases (Tag.lookUp look.bytes look.offset : Logged ι _).value <;> simp

/-! ## 3. Many looks -/

/-- The answers of one cache to some looks, one after the other, and after each of them whether an
answer is remembered. -/
def getAll : List Look → TagCache →
    Logged ι (List (Except Fault (Option Tag) × Bool) × TagCache)
  | [], cache => pure ([], cache)
  | look :: looks, cache => do
    let (answer, next) ← cache.get look.bytes look.offset
    let (answers, last) ← getAll looks next
    pure ((answer, next.isParsed) :: answers, last)

theorem value_getAll_cons (look : Look) (looks : List Look) (cache : TagCache) :
    (getAll (look :: looks) cache : Logged ι _).value =
      let (answer, next) := (cache.get look.bytes look.offset : Logged ι _).value
      let (answers, last) := (getAll looks next : Logged ι _).value
      ((answer, next.isParsed) :: answers, last) := rfl

theorem events_getAll_cons (look : Look) (looks : List Look) (cache : TagCache) :
    (getAll (look :: looks) cache : Logged ι _).events =
      (cache.get look.bytes look.offset : Logged ι _).events ++
        (getAll looks (cache.get look.bytes look.offset : Logged ι _).value.2 : Logged ι _).events := by
  simp [getAll]

/-- **A cache that remembers an answer gives it for good**, and looks for nothing. -/
theorem getAll_of_answer (answer : Option Tag) (looks : List Look) :
    (getAll looks ⟨some answer⟩ : Logged ι _).value =
        (looks.map fun _ => (.ok answer, true), ⟨some answer⟩) ∧
      (getAll looks ⟨some answer⟩ : Logged ι _).events = [] := by
  induction looks with
  | nil => exact ⟨rfl, rfl⟩
  | cons look looks ih =>
    obtain ⟨hvalue, hevents⟩ := ih
    rw [value_getAll_cons, events_getAll_cons, get_of_answer]
    simp [hvalue, hevents, isParsed]

/-- Looks that fail answer with their own faults, and the cache is as empty as before. -/
theorem getAll_append_of_fails {before : List Look} (h : ∀ look ∈ before, look.Fails)
    (looks : List Look) :
    (getAll (before ++ looks) {} : Logged ι _).value =
        ((before.map fun look => (look.outcome, false)) ++ (getAll looks {} : Logged ι _).value.1,
          (getAll looks {} : Logged ι _).value.2) ∧
      (getAll (before ++ looks) {} : Logged ι _).events = (getAll looks {} : Logged ι _).events := by
  induction before with
  | nil => exact ⟨rfl, rfl⟩
  | cons look before ih =>
    obtain ⟨hlook, hbefore⟩ := List.forall_mem_cons.mp h
    obtain ⟨hvalue, hevents⟩ := ih hbefore
    obtain ⟨hget, hreport⟩ := @get_empty ι look
    obtain ⟨fault, hfault⟩ := id hlook
    rw [hfault] at hget
    rw [List.cons_append, value_getAll_cons, events_getAll_cons, hget, hreport, hlook.events]
    simp [hvalue, hevents, hfault, isParsed]

/-- The first look that does not fail is answered, and settles all answers after it. -/
theorem getAll_cons_of_ok {look : Look} {answer : Option Tag} (h : look.outcome = .ok answer)
    (looks : List Look) :
    (getAll (look :: looks) {} : Logged ι _).value =
        ((look :: looks).map fun _ => (.ok answer, true), ⟨some answer⟩) ∧
      (getAll (look :: looks) {} : Logged ι _).events = (look.afresh : Logged ι _).events := by
  obtain ⟨hget, hreport⟩ := @get_empty ι look
  obtain ⟨hvalue, hevents⟩ := @getAll_of_answer ι answer looks
  rw [h] at hget
  rw [value_getAll_cons, events_getAll_cons, hget, hreport]
  simp [hvalue, hevents, isParsed]

/-- Looks fail one and all, or there is a first one that does not. -/
theorem all_fail_or_first (looks : List Look) :
    (∀ look ∈ looks, look.Fails) ∨ ∃ before look after answer, looks = before ++ look :: after ∧
      (∀ earlier ∈ before, earlier.Fails) ∧ look.outcome = .ok answer := by
  induction looks with
  | nil => exact .inl nofun
  | cons look looks ih =>
    cases houtcome : look.outcome with
    | ok answer => exact .inr ⟨[], look, looks, answer, rfl, nofun, houtcome⟩
    | error fault =>
      have hlook : look.Fails := ⟨fault, houtcome⟩
      rcases ih with hall | ⟨before, first, after, answer, rfl, hbefore, hfirst⟩
      · exact .inl (List.forall_mem_cons.mpr ⟨hlook, hall⟩)
      · exact .inr ⟨look :: before, first, after, answer, rfl,
          List.forall_mem_cons.mpr ⟨hlook, hbefore⟩, hfirst⟩

/-- **A cache keeps the first answer that is no fault, and nothing else.**  If all looks fail, each
answers with its own fault, and nothing is ever remembered.  Otherwise there is a first look that
does not fail.  The looks before it answer with their own faults, and nothing is remembered; from
this look on all answers are its outcome, with or without a tag, and it is remembered.  What is
reported is what this one look reports. -/
theorem first_answer_is_kept (looks : List Look) :
    ((∀ look ∈ looks, look.Fails) ∧
      (getAll looks {} : Logged ι _).value = (looks.map fun look => (look.outcome, false), {}) ∧
      (getAll looks {} : Logged ι _).events = []) ∨
    ∃ before look after answer, looks = before ++ look :: after ∧
      (∀ earlier ∈ before, earlier.Fails) ∧ look.outcome = .ok answer ∧
      (getAll looks {} : Logged ι _).value =
        ((before.map fun earlier => (earlier.outcome, false)) ++
          (look :: after).map fun _ => (.ok answer, true), ⟨some answer⟩) ∧
      (getAll looks {} : Logged ι _).events = (look.afresh : Logged ι _).events := by
  rcases all_fail_or_first looks with hall | ⟨before, look, after, answer, rfl, hbefore, hlook⟩
  · obtain ⟨hvalue, hevents⟩ := @getAll_append_of_fails ι looks hall []
    rw [List.append_nil] at hvalue hevents
    exact .inl ⟨hall, by rw [hvalue]; exact Prod.ext (List.append_nil _) rfl, hevents⟩
  · obtain ⟨hvalue, hevents⟩ := @getAll_append_of_fails ι before hbefore (look :: after)
    obtain ⟨hkept, hreport⟩ := @getAll_cons_of_ok ι look answer hlook after
    exact .inr ⟨before, look, after, answer, rfl, hbefore, hlook,
      by rw [hvalue, hkept], by rw [hevents, hreport]⟩

/-- A place outside the image is asked for again, that there is no tag is not. -/
example : (getAll [⟨.empty, some 8⟩, ⟨.empty, none⟩, ⟨.empty, some 8⟩] {} : Logged Site _).value.1 =
    [(.error (.outOfRange 8 4 0 (some .tagIdent)), false), (.ok none, true), (.ok none, true)] := rfl

end TagCache

end ChipLog
