import VoltykBot.Schedule.Charts

/-!
This module contains `get_queue_source_updated_at` with its ETags: concurrent calls ask the commits API for
the time of the newest commit of a path, and a call whose ETag is still the current one takes the cached
time again. It shows in which runs a cached time and the ETag beside it come from one answer.
-/

namespace Scheduler

section

/-
`_normalize_dtek_updated_at`, which raises where the outer option is `none`, and the JSON text of the
commits that the API sends for a path with an ETag.
-/
variable (normalize : Json → Option (Option String)) (commitsOf : String → String → Json)

def Json.orEmpty (j : Option Json) : Json :=
  match j with
  | some j => if j.truthy then j else .obj []
  | none => .obj []

def commitField (commit : Option Json) (name : String) : Option Json :=
  match commit with
  | some (.obj fields) => fields.lookup name
  | _ => none

/--
The date of the newest commit; `none` where the access to it raises.
-/
def commitDate (commit : Option Json) : Option Json := do
  let date ← (Json.orEmpty (commitField commit "committer")).get "date"
  let date := date.getD .null
  if date.truthy then
    some date
  else
    let date ← (Json.orEmpty (commitField commit "author")).get "date"
    some (date.getD .null)

def normalizedCommits (commits : Json) : Option (Option String) :=
  match commits with
  | .arr (first :: _) => do
    let date ← commitDate (commitField (some first) "commit")
    normalize date
  | _ => some none

inductive CommitsAnswer where
  | notModified
  | ok (etag : Option String) (commits : Json)

inductive SourceCall where
  | requesting (path : String) (cached : Option String) (etag : Option String)
  | answered (path : String) (cached : Option String) (etag : Option String) (answer : CommitsAnswer)

/--
`current` has the ETag of each path upstream; `returned` records what the calls returned.
-/
structure SourceCalls where
  cache : TtlCache.Front String (Option String)
  etags : String → Option String
  current : String → String
  calls : Nat → Option SourceCall
  returned : List (String × Option String)

inductive SourceEvent where
  | pushed (path : String) (etag : String)
  | called (id : Nat) (region : String) (now : Int)
  | answered (id : Nat) (withEtag : Bool)
  | failed (id : Nat)
  | resumed (id : Nat) (now : Int)
  deriving DecidableEq

namespace SourceCalls

def start (current : String → String) : SourceCalls where
  cache := []
  etags := fun _ => none
  current := current
  calls := fun _ => none
  returned := []

variable (s : SourceCalls)

def returning (path : String) (value : Option String) : SourceCalls :=
  { s with returned := (path, value) :: s.returned }

def setCall (id : Nat) (call : Option SourceCall) : SourceCalls :=
  { s with calls := Function.update s.calls id call }

def called (id : Nat) (region : String) (now : Int) : SourceCalls :=
  let path := "data/" ++ region ++ ".json"
  match s.cache.fresh path queueSourceUpdateTtl now with
  | some value => { s with cache := s.cache.touch path }.returning path value
  | none =>
    let cached := (s.cache.lookup path).bind (·.value)
    s.setCall id (some (.requesting path cached (s.etags path)))

/--
The API answers 304 if the ETag of the request is the current one.
-/
def answer (path : String) (etag : Option String) (withEtag : Bool) : CommitsAnswer :=
  let current := s.current path
  if etag = some current then
    .notModified
  else
    .ok (if withEtag then some current else none) (commitsOf path current)

def storeNotModified (path : String) (cached : Option String) (now : Int) : SourceCalls :=
  { s with cache := s.cache.put path now cached }

def evictOldest : SourceCalls :=
  match s.cache with
  | old :: rest =>
    if s.cache.length > maxCacheSize then
      { s with cache := rest, etags := Function.update s.etags old.key none }
    else
      s
  | [] => s

def storeEtag (path : String) (newEtag : Option String) : SourceCalls :=
  match newEtag with
  -- an empty text counts as no ETag
  | some etag =>
    if etag ≠ "" then { s with etags := Function.update s.etags path (some etag) } else s
  | none => s

def storeNormalized (path : String) (normalized newEtag : Option String) (now : Int) : SourceCalls :=
  ({ s with cache := s.cache.put path now normalized }.evictOldest).storeEtag path newEtag

def resume (path : String) (cached : Option String) (answer : CommitsAnswer) (now : Int) : SourceCalls :=
  match answer with
  | .notModified => (s.storeNotModified path cached now).returning path cached
  | .ok newEtag commits =>
    match normalizedCommits normalize commits with
    | none => s.returning path cached
    | some normalized => (s.storeNormalized path normalized newEtag now).returning path normalized

def step (e : SourceEvent) : Option SourceCalls :=
  match e with
  | .pushed path etag => some { s with current := Function.update s.current path etag }
  | .called id region now =>
    match s.calls id with
    | none => some (s.called id region now)
    | some _ => none
  | .answered id withEtag =>
    match s.calls id with
    | some (.requesting path cached etag) =>
      some (s.setCall id (some (.answered path cached etag (s.answer commitsOf path etag withEtag))))
    | _ => none
  | .failed id =>
    -- another status, an oversized or unreadable answer, an exception
    match s.calls id with
    | some (.requesting path cached _) => some ((s.setCall id none).returning path cached)
    | some (.answered path cached _ _) => some ((s.setCall id none).returning path cached)
    | none => none
  | .resumed id now =>
    match s.calls id with
    | some (.answered path cached _ answer) =>
      some ((s.resume normalize path cached answer now).setCall id none)
    | _ => none

/--
The cached value of a path with an ETag is what the answer with this ETag was normalized to.
-/
def ValuesOfEtags : Prop :=
  ∀ path etag, s.etags path = some etag → ∃ entry, s.cache.lookup path = some entry ∧
    normalizedCommits normalize (commitsOf path etag) = some entry.value

def ConfirmsOwnValue : Prop :=
  ∀ id path cached etag, s.calls id = some (.answered path cached etag .notModified) →
    ∃ etag', etag = some etag' ∧ normalizedCommits normalize (commitsOf path etag') = some cached

def Keeps (path : String) (value : Option String) : Prop :=
  (s.etags path).isSome → (s.cache.lookup path).map (·.value) = some value

/--
A call that writes a value without an ETag of its own finds this value in the cache, or no ETag: no
other call has stored another version since it read the cache, and no answer without an ETag replaces the
value of one with an ETag.
-/
def KeepsEtagsValue (e : SourceEvent) : Prop :=
  match e with
  | .resumed id _ =>
    match s.calls id with
    | some (.answered path cached _ .notModified) => s.Keeps path cached
    | some (.answered path _ _ (.ok newEtag commits)) =>
      match normalizedCommits normalize commits with
      | some normalized => newEtag.getD "" = "" → s.Keeps path normalized
      | none => True
    | _ => True
  | _ => True

structure Inv : Prop where
  values : s.ValuesOfEtags normalize commitsOf
  confirms : s.ConfirmsOwnValue normalize commitsOf
  requested : ∀ id path cached etag, s.calls id = some (.requesting path cached (some etag)) →
    normalizedCommits normalize (commitsOf path etag) = some cached
  carried : ∀ id path cached etag newEtag commits,
    s.calls id = some (.answered path cached etag (.ok (some newEtag) commits)) →
      commits = commitsOf path newEtag

variable {normalize commitsOf} {s}

theorem evictOldest_cases (path : String)
    : s.evictOldest.etags path = none ∨
        (s.evictOldest.etags path = s.etags path ∧
          s.evictOldest.cache.lookup path = s.cache.lookup path) := by
  unfold evictOldest
  split
  . next old rest hcache =>
    split
    . by_cases hold : old.key = path
      . left
        rw [hold]
        exact Function.update_self ..
      . right
        rw [hcache]
        exact ⟨Function.update_of_ne (Ne.symm hold) .., (TtlCache.Front.lookup_cons_of_ne hold).symm⟩
    . exact .inr ⟨rfl, rfl⟩
  . exact .inr ⟨rfl, rfl⟩

theorem evictOldest_put {path : String} {now : Int} {value : Option String}
    {front : TtlCache.Front String (Option String)}
    (hcache : s.cache = front.put path now value)
    : s.evictOldest.etags path = s.etags path ∧
        s.evictOldest.cache.lookup path = some { key := path, cachedAt := now, value := value } := by
  have hlookup : s.cache.lookup path = some { key := path, cachedAt := now, value := value } := by
    rw [hcache, TtlCache.Front.lookup_put_self]
  unfold evictOldest
  split
  . next old rest hsplit =>
    split
    . next hlong =>
      have hold : old.key ≠ path := by
        rw [hcache] at hsplit hlong
        unfold TtlCache.Front.put at hsplit hlong
        cases herase : front.erase path with
        | nil =>
          have hshort : ¬ 1 > maxCacheSize := by decide
          rw [herase] at hlong
          exact absurd hlong hshort
        | cons first others =>
          rw [herase, List.cons_append] at hsplit
          have hfirst : first ∈ front.erase path := herase ▸ List.mem_cons_self
          rw [← (List.cons.inj hsplit).1]
          simpa using (List.mem_filter.mp hfirst).2
      rw [hsplit, TtlCache.Front.lookup_cons_of_ne hold] at hlookup
      exact ⟨Function.update_of_ne (Ne.symm hold) .., hlookup⟩
    . exact ⟨rfl, hlookup⟩
  . exact ⟨rfl, hlookup⟩

theorem cache_storeEtag (path : String) (newEtag : Option String)
    : (s.storeEtag path newEtag).cache = s.cache := by
  unfold storeEtag
  split
  . split
    . rfl
    . rfl
  . rfl

theorem etags_storeEtag (path : String) (newEtag : Option String)
    : (s.storeEtag path newEtag).etags =
        if newEtag.getD "" = "" then s.etags else Function.update s.etags path newEtag := by
  unfold storeEtag
  split
  . next etag =>
    rw [Option.getD_some]
    by_cases hempty : etag = ""
    . rw [if_neg (not_not.mpr hempty), if_pos hempty]
    . rw [if_pos hempty, if_neg hempty]
  . rfl

theorem storeNormalized_path (path : String) (normalized newEtag : Option String) (now : Int)
    : (s.storeNormalized path normalized newEtag now).cache.lookup path =
          some { key := path, cachedAt := now, value := normalized } ∧
        (s.storeNormalized path normalized newEtag now).etags path =
          if newEtag.getD "" = "" then s.etags path else newEtag := by
  have hput := @evictOldest_put { s with cache := s.cache.put path now normalized } path now normalized
    s.cache rfl
  unfold storeNormalized
  rw [cache_storeEtag, etags_storeEtag]
  refine ⟨hput.2, ?_⟩
  split
  . exact hput.1
  . exact Function.update_self ..

theorem storeNormalized_other {path path' : String} (h : path' ≠ path)
    (normalized newEtag : Option String) (now : Int)
    : (s.storeNormalized path normalized newEtag now).etags path' = none ∨
        ((s.storeNormalized path normalized newEtag now).etags path' = s.etags path' ∧
          (s.storeNormalized path normalized newEtag now).cache.lookup path' =
            s.cache.lookup path') := by
  have hcases := evictOldest_cases (s := { s with cache := s.cache.put path now normalized }) path'
  rw [TtlCache.Front.lookup_put_of_ne h] at hcases
  unfold storeNormalized
  rw [cache_storeEtag, etags_storeEtag]
  split
  . exact hcases
  . rw [Function.update_of_ne h]
    exact hcases

theorem values_of_write {s' : SourceCalls} {path : String} {value : Option String} {now : Int}
    (hvalues : s.ValuesOfEtags normalize commitsOf)
    (hpath : s'.cache.lookup path = some { key := path, cachedAt := now, value := value })
    (hother : ∀ path', path' ≠ path → s'.etags path' = none ∨
      (s'.etags path' = s.etags path' ∧ s'.cache.lookup path' = s.cache.lookup path'))
    : s'.ValuesOfEtags normalize commitsOf ↔
        ∀ etag, s'.etags path = some etag →
          normalizedCommits normalize (commitsOf path etag) = some value := by
  constructor
  . intro hvalues' etag hetag
    obtain ⟨entry, hentry, hvalue⟩ := hvalues' path etag hetag
    rw [hpath] at hentry
    rw [hvalue, ← Option.some.inj hentry]
  . intro hwritten path' etag hetag
    by_cases hsame : path' = path
    . subst hsame
      exact ⟨_, hpath, hwritten etag hetag⟩
    . cases hother path' hsame with
      | inl hnone =>
        rw [hnone] at hetag
        cases hetag
      | inr hkept =>
        rw [hkept.1] at hetag
        rw [hkept.2]
        exact hvalues path' etag hetag

theorem keeps_iff {path : String} {value : Option String} (hvalues : s.ValuesOfEtags normalize commitsOf)
    : s.Keeps path value ↔
        ∀ etag, s.etags path = some etag →
          normalizedCommits normalize (commitsOf path etag) = some value := by
  unfold Keeps
  constructor
  . intro hkeeps etag hetag
    obtain ⟨entry, hentry, hvalue⟩ := hvalues path etag hetag
    have hcached := hkeeps (by rw [hetag]; rfl)
    rw [hentry] at hcached
    rw [hvalue, ← hcached]
    rfl
  . intro hwritten hetag
    obtain ⟨etag, hetag⟩ := Option.isSome_iff_exists.mp hetag
    obtain ⟨entry, hentry, hvalue⟩ := hvalues path etag hetag
    rw [hentry, Option.map_some, ← hvalue]
    exact hwritten etag hetag

theorem calls_setCall (id id' : Nat) (call : Option SourceCall)
    : (s.setCall id call).calls id' = if id' = id then call else s.calls id' :=
  Function.update_apply ..

theorem calls_resume (path : String) (cached : Option String) (answer : CommitsAnswer) (now : Int)
    : (s.resume normalize path cached answer now).calls = s.calls := by
  unfold resume
  split
  . rfl
  . split
    . rfl
    . unfold returning storeNormalized storeEtag evictOldest
      dsimp only
      repeat' split
      all_goals rfl

theorem Inv.of_calls {s' : SourceCalls} (h : s.Inv normalize commitsOf) (hcalls : s'.calls = s.calls)
    (hvalues : s'.ValuesOfEtags normalize commitsOf) : s'.Inv normalize commitsOf where
  values := hvalues
  confirms := by
    unfold ConfirmsOwnValue
    rw [hcalls]
    exact h.confirms
  requested := hcalls ▸ h.requested
  carried := hcalls ▸ h.carried

theorem Inv.forget (h : s.Inv normalize commitsOf) (id : Nat) : (s.setCall id none).Inv normalize commitsOf := by
  have hcalls {id' : Nat} {call : SourceCall} (hcall : (s.setCall id none).calls id' = some call)
      : s.calls id' = some call := by
    rw [calls_setCall] at hcall
    split at hcall
    . cases hcall
    . exact hcall
  constructor
  . exact h.values
  . exact fun id' path cached etag hcall => h.confirms id' path cached etag (hcalls hcall)
  . exact fun id' path cached etag hcall => h.requested id' path cached etag (hcalls hcall)
  . exact fun id' path cached etag newEtag commits hcall =>
      h.carried id' path cached etag newEtag commits (hcalls hcall)

theorem Inv.called (h : s.Inv normalize commitsOf) (id : Nat) (region : String) (now : Int)
    : (s.called id region now).Inv normalize commitsOf := by
  unfold SourceCalls.called
  dsimp only
  split
  . refine h.of_calls (by rfl) ?_
    intro path etag hetag
    obtain ⟨entry, hentry, hvalue⟩ := h.values path etag hetag
    refine ⟨entry, ?_, hvalue⟩
    exact (TtlCache.Front.lookup_touch path).trans hentry
  . constructor
    . exact h.values
    . intro id' path cached etag hcall
      rw [calls_setCall] at hcall
      split at hcall
      . cases hcall
      . exact h.confirms id' path cached etag hcall
    . intro id' path cached etag hcall
      rw [calls_setCall] at hcall
      split at hcall
      . injection hcall with hcall
        injection hcall with hpath hcached hetag
        subst hpath hcached
        obtain ⟨entry, hentry, hvalue⟩ := h.values _ etag hetag
        rw [hentry]
        exact hvalue
      . exact h.requested id' path cached etag hcall
    . intro id' path cached etag newEtag commits hcall
      rw [calls_setCall] at hcall
      split at hcall
      . cases hcall
      . exact h.carried id' path cached etag newEtag commits hcall

theorem Inv.answered (h : s.Inv normalize commitsOf) {id : Nat} {path : String}
    {cached etag : Option String} (hcall : s.calls id = some (.requesting path cached etag))
    (withEtag : Bool)
    : (s.setCall id (some (.answered path cached etag
        (s.answer commitsOf path etag withEtag)))).Inv normalize commitsOf := by
  constructor
  . exact h.values
  . intro id' path' cached' etag' hcall'
    rw [calls_setCall] at hcall'
    split at hcall'
    . injection hcall' with hcall'
      injection hcall' with hpath hcached hetag hanswer
      subst hpath hcached hetag
      unfold answer at hanswer
      dsimp only at hanswer
      split at hanswer
      . next hcurrent =>
        rw [hcurrent] at hcall
        exact ⟨_, hcurrent, h.requested id path cached _ hcall⟩
      . cases hanswer
    . exact h.confirms id' path' cached' etag' hcall'
  . intro id' path' cached' etag' hcall'
    rw [calls_setCall] at hcall'
    split at hcall'
    . cases hcall'
    . exact h.requested id' path' cached' etag' hcall'
  . intro id' path' cached' etag' newEtag commits hcall'
    rw [calls_setCall] at hcall'
    split at hcall'
    . injection hcall' with hcall'
      injection hcall' with hpath hcached hetag hanswer
      subst hpath
      unfold answer at hanswer
      dsimp only at hanswer
      split at hanswer
      . cases hanswer
      . injection hanswer with hnew hcommits
        split at hnew
        . rw [← hcommits, Option.some.inj hnew]
        . cases hnew
    . exact h.carried id' path' cached' etag' newEtag commits hcall'

theorem values_resume (hvalues : s.ValuesOfEtags normalize commitsOf) {path : String}
    {cached etag : Option String} {answer : CommitsAnswer} {id : Nat}
    (hcall : s.calls id = some (.answered path cached etag answer))
    (hcarried : ∀ newEtag commits, answer = .ok (some newEtag) commits →
      commits = commitsOf path newEtag) (now : Int)
    : (s.resume normalize path cached answer now).ValuesOfEtags normalize commitsOf ↔
        s.KeepsEtagsValue normalize (.resumed id now) := by
  unfold KeepsEtagsValue
  dsimp only
  rw [hcall]
  cases answer with
  | notModified =>
    dsimp only
    rw [keeps_iff hvalues]
    refine values_of_write hvalues (TtlCache.Front.lookup_put_self now cached) ?_
    intro path' hne
    exact .inr ⟨rfl, TtlCache.Front.lookup_put_of_ne hne now cached⟩
  | ok newEtag commits =>
    unfold resume
    dsimp only
    cases hnormalized : normalizedCommits normalize commits with
    | none => exact iff_of_true hvalues trivial
    | some normalized =>
      obtain ⟨hlookup, hetag⟩ := storeNormalized_path (s := s) path normalized newEtag now
      dsimp only
      rw [keeps_iff hvalues]
      refine (values_of_write hvalues hlookup fun path' hne =>
        storeNormalized_other hne normalized newEtag now).trans ?_
      rw [hetag]
      split
      . next hempty => exact (imp_iff_right hempty).symm
      . next hnew =>
        refine iff_of_true ?_ fun hempty => absurd hempty hnew
        intro etag' hetag'
        rw [← hcarried etag' commits (by rw [hetag'])]
        exact hnormalized

/--
The values agree with the ETags, and a 304 confirms the value of its own ETag.
-/
def Coherent (normalize : Json → Option (Option String)) (commitsOf : String → String → Json)
    (s : SourceCalls) : Prop :=
  s.ValuesOfEtags normalize commitsOf ∧ s.ConfirmsOwnValue normalize commitsOf

theorem inv_start (current : String → String) : (start current).Inv normalize commitsOf := by
  constructor
  . intro path etag hetag
    cases hetag
  . intro id path cached etag hcall
    cases hcall
  . intro id path cached etag hcall
    cases hcall
  . intro id path cached etag newEtag commits hcall
    cases hcall

theorem inv_step {s' : SourceCalls} {e : SourceEvent} (h : s.Inv normalize commitsOf)
    (hstep : s.step normalize commitsOf e = some s')
    : (s.KeepsEtagsValue normalize e → s'.Inv normalize commitsOf) ∧
        (¬ s.KeepsEtagsValue normalize e → ¬ s'.ValuesOfEtags normalize commitsOf) := by
  cases e with
  | pushed path etag =>
    cases hstep
    exact ⟨fun _ => h.of_calls (by rfl) h.values, fun hnot => absurd trivial hnot⟩
  | called id region now =>
    unfold step at hstep
    dsimp only at hstep
    split at hstep
    . cases hstep
      exact ⟨fun _ => h.called id region now, fun hnot => absurd trivial hnot⟩
    . cases hstep
  | answered id withEtag =>
    unfold step at hstep
    dsimp only at hstep
    split at hstep
    . next hcall =>
      cases hstep
      exact ⟨fun _ => h.answered hcall withEtag, fun hnot => absurd trivial hnot⟩
    . cases hstep
  | failed id =>
    have hforget := h.forget id
    unfold step at hstep
    dsimp only at hstep
    split at hstep
    . cases hstep
      exact ⟨fun _ => hforget.of_calls (by rfl) hforget.values, fun hnot => absurd trivial hnot⟩
    . cases hstep
      exact ⟨fun _ => hforget.of_calls (by rfl) hforget.values, fun hnot => absurd trivial hnot⟩
    . cases hstep
  | resumed id now =>
    unfold step at hstep
    dsimp only at hstep
    split at hstep
    . next path cached etag answer hcall =>
      cases hstep
      have hcarried : ∀ newEtag commits, answer = .ok (some newEtag) commits →
          commits = commitsOf path newEtag := by
        rintro newEtag commits rfl
        exact h.carried id path cached etag newEtag commits hcall
      have hvalues := values_resume h.values hcall hcarried now
      constructor
      . intro hkeeps
        have hresumed := h.of_calls (calls_resume path cached answer now) (hvalues.mpr hkeeps)
        exact hresumed.forget id
      . exact fun hnot hcoherent => hnot (hvalues.mp hcoherent)
    . cases hstep

theorem alwaysCoherent_iff {current : String → String} {s : SourceCalls} {es : List SourceEvent}
    (hrun : Run.exec (step normalize commitsOf) (start current) es = some s)
    : Run.Always (step normalize commitsOf) (Coherent normalize commitsOf) (start current) es
        ↔
      Run.StepsMeet (step normalize commitsOf) (KeepsEtagsValue normalize) (start current) es := by
  refine Run.always_iff_stepsMeet (fun h hkeeps hstep => (inv_step h hstep).1 hkeeps) ?_ ?_
    (inv_start current) hrun
  . exact fun h => ⟨h.values, h.confirms⟩
  . exact fun h hnot hstep hcoherent => (inv_step h hstep).2 hnot hcoherent.1

instance decidableKeeps (path : String) (value : Option String) : Decidable (s.Keeps path value) :=
  inferInstanceAs (Decidable (_ → _))

instance decidableKeepsEtagsValue (e : SourceEvent) : Decidable (s.KeepsEtagsValue normalize e) :=
  match e with
  | .resumed id _ =>
    match hcall : s.calls id with
    | some (.answered path cached _ .notModified) =>
      decidable_of_iff (s.Keeps path cached) (by simp only [KeepsEtagsValue, hcall])
    | some (.answered path _ _ (.ok newEtag commits)) =>
      match hnormalized : normalizedCommits normalize commits with
      | some normalized =>
        decidable_of_iff (newEtag.getD "" = "" → s.Keeps path normalized)
          (by simp only [KeepsEtagsValue, hcall, hnormalized])
      | none => isTrue (by simp only [KeepsEtagsValue, hcall, hnormalized])
    | some (.requesting _ _ _) => isTrue (by simp only [KeepsEtagsValue, hcall])
    | none => isTrue (by simp only [KeepsEtagsValue, hcall])
  | .pushed _ _ => isTrue trivial
  | .called _ _ _ => isTrue trivial
  | .answered _ _ => isTrue trivial
  | .failed _ => isTrue trivial

end SourceCalls

end

namespace SourceCalls

def textOnly (date : Json) : Option (Option String) :=
  match date with
  | .str text => some (some text)
  | _ => some none

def commitOfEtag (_ etag : String) : Json :=
  .arr [.obj [("commit", .obj [("committer", .obj [("date", .str ("the date of " ++ etag))])])]]

/--
Two calls find the cached time too old. The first is told that its ETag is current, then a commit is
pushed, and the second gets the new time.
-/
def overlappingCalls : List SourceEvent := [
  .called 0 "kyiv" 0, .answered 0 true, .resumed 0 0,
  .called 1 "kyiv" queueSourceUpdateTtl, .called 2 "kyiv" queueSourceUpdateTtl,
  .answered 1 true, .pushed "data/kyiv.json" "second", .answered 2 true]

theorem alwaysCoherent_overlappingCalls
    : Run.Always (step textOnly commitOfEtag) (Coherent textOnly commitOfEtag) (start fun _ => "first")
        (overlappingCalls ++
          [.resumed 1 queueSourceUpdateTtl, .resumed 2 queueSourceUpdateTtl]) := by
  have hrun : (Run.exec (step textOnly commitOfEtag) (start fun _ => "first") (overlappingCalls ++
      [.resumed 1 queueSourceUpdateTtl, .resumed 2 queueSourceUpdateTtl])).isSome := by
    decide +kernel
  exact (alwaysCoherent_iff (Option.some_get hrun).symm).mpr (by decide +kernel)

/--
The first call resumes last, and another call comes when the time is too old again.
-/
def lateConfirmation : List SourceEvent :=
  overlappingCalls ++ [.resumed 2 queueSourceUpdateTtl, .resumed 1 queueSourceUpdateTtl,
    .called 3 "kyiv" (2 * queueSourceUpdateTtl), .answered 3 true]

theorem not_coherent_lateConfirmation
    : ∃ s,
        Run.exec (step textOnly commitOfEtag) (start fun _ => "first") lateConfirmation = some s ∧
        ¬ s.ValuesOfEtags textOnly commitOfEtag ∧ ¬ s.ConfirmsOwnValue textOnly commitOfEtag := by
  have hrun : (Run.exec (step textOnly commitOfEtag) (start fun _ => "first")
      lateConfirmation).isSome := by
    decide +kernel
  obtain ⟨s, hs⟩ := Option.isSome_iff_exists.mp hrun
  have hbeside : (Run.exec (step textOnly commitOfEtag) (start fun _ => "first")
      lateConfirmation).map (fun s =>
        (s.etags "data/kyiv.json", (s.cache.lookup "data/kyiv.json").map (·.value))) =
      some (some "second", some (some "the date of first")) := by
    decide +kernel
  have hconfirming : (Run.exec (step textOnly commitOfEtag) (start fun _ => "first")
      lateConfirmation).map (·.calls 3) =
      some (some (.answered "data/kyiv.json" (some "the date of first") (some "second")
        .notModified)) := by
    rfl
  rw [hs, Option.map_some, Option.some_inj] at hbeside hconfirming
  refine ⟨s, hs, ?_, ?_⟩
  . intro hvalues
    obtain ⟨entry, hentry, hvalue⟩ := hvalues "data/kyiv.json" "second" (Prod.mk.inj hbeside).1
    have hcached := (Prod.mk.inj hbeside).2
    rw [hentry, Option.map_some, Option.some_inj] at hcached
    rw [hcached] at hvalue
    revert hvalue
    decide +kernel
  . intro hconfirms
    obtain ⟨etag, hetag, hvalue⟩ := hconfirms 3 _ _ _ hconfirming
    rw [← Option.some.inj hetag] at hvalue
    revert hvalue
    decide +kernel

end SourceCalls

end Scheduler
