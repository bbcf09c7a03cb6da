import GridLang.Playground.Server

/-!
# GridLang.Proofs.SessionIsolation

**Sessions are isolated.** What a page shows of a session depends on nothing but what was submitted
to that session: on the actions of accepted requests whose segment of the path is decoded to its
name, in order and with the fields of their forms (`submissions`). Requests that only read, requests
that are rejected and requests to other sessions leave no trace in it. A reset that comes with both
editor fields leaves no trace of what was submitted before it either.

* `Server.session_handle` says what one request does to a session, and `Server.session_handleAll`
  what a sequence of requests does: the actions of its submissions, in turn.
* `Session.takeEditor_eq`: of several editor fields of one name the last counts, and if there is one
  the editor as it was before does not.
-/

namespace GridLang.Playground

/-! ### What is submitted to a session -/

/-- What a request submits, if it is accepted: the name of the session, the action, and the fields
of the form. It is accepted if it asks for an action, by the method of actions, on a session whose
name can be decoded, and declares its body as a form. -/
def Request.submission? (request : Request) : Option (String × Action × Fields) :=
  match Resource.ofPath? (Resource.pathOf request.target) with
  | some (.action segment action) =>
    if request.method = "POST" ∧ isForm request.contentType? = true then
      (sessionName? segment).map fun name => (name, action, Form.decode request.body)
    else none
  | _ => none

/-- The path of a request leads to a session: to its page, or to one of its actions. -/
def Request.LeadsTo (request : Request) (name : String) : Prop :=
  ∃ segment, sessionName? segment = some name ∧
    (Resource.ofPath? (Resource.pathOf request.target) = some (.view (.page segment)) ∨
      ∃ action, Resource.ofPath? (Resource.pathOf request.target) = some (.action segment action))

/-- A request gets the page of a session. -/
def Request.GetsPage (request : Request) (name : String) : Prop :=
  request.method = "GET" ∧ ∃ segment, sessionName? segment = some name ∧
    Resource.ofPath? (Resource.pathOf request.target) = some (.view (.page segment))

/-- What requests submit to the session of a name, in turn. -/
def submissions (name : String) (requests : List Request) : List (Action × Fields) :=
  ((requests.filterMap Request.submission?).filter (·.1 = name)).map Prod.snd

theorem submissions_append (name : String) (xs ys : List Request) :
    submissions name (xs ++ ys) = submissions name xs ++ submissions name ys := by
  simp [submissions]

theorem submissions_cons (name : String) (request : Request) (requests : List Request) :
    submissions name (request :: requests) =
      submissions name [request] ++ submissions name requests :=
  submissions_append name [request] requests

theorem submissions_of_submission? {request : Request} {other : String} {action : Action}
    {fields : Fields} (h : request.submission? = some (other, action, fields)) (name : String) :
    submissions name [request] = if other = name then [(action, fields)] else [] := by
  by_cases hname : other = name <;> simp [submissions, h, hname]

theorem submissions_of_submission?_eq_none {request : Request} (h : request.submission? = none)
    (name : String) : submissions name [request] = [] := by
  simp [submissions, h]

/-! ### What actions leave of a session -/

/-- The text of the last field of a name. -/
def lastText? (name : String) (fields : Fields) : Option String := fields.reverse.lookup name

theorem lastText?_cons (wanted name text : String) (fields : Fields) :
    lastText? wanted ((name, text) :: fields) =
      (lastText? wanted fields).or (if name = wanted then some text else none) := by
  rw [lastText?, List.reverse_cons, List.lookup_append, ← lastText?]
  by_cases h : name = wanted
  · simp [h]
  · have hne : (wanted == name) = false := by simpa using Ne.symm h
    simp [h, List.lookup_cons, hne]

theorem exists_lastText? {name : String} {fields : Fields} (h : name ∈ fields.map Prod.fst) :
    ∃ text, lastText? name fields = some text := by
  rw [← Option.ne_none_iff_exists']
  intro hnone
  obtain ⟨field, hfield, rfl⟩ := List.mem_map.1 h
  simpa using List.lookup_eq_none_iff.1 hnone field (List.mem_reverse.2 hfield)

namespace Session

/-- Of several editor fields of one name, the last counts. -/
theorem takeEditor_eq (s : Session) (fields : Fields) :
    s.takeEditor fields =
      { s with
        code := (lastText? "code" fields).getD s.code
        start := ((lastText? "start" fields).map Text.trim).getD s.start } := by
  induction fields generalizing s with
  | nil => rfl
  | cons field fields ih =>
      obtain ⟨name, text⟩ := field
      rw [takeEditor_cons, ih, lastText?_cons, lastText?_cons, takeField]
      by_cases hcode : name = "code"
      · subst hcode
        cases lastText? "code" fields <;> simp
      · by_cases hstart : name = "start"
        · subst hstart
          cases lastText? "start" fields <;> simp
        · simp [hcode, hstart]

/-- **A reset with both editor fields** leaves only the name of a session. -/
theorem reset_eq_reset {s t : Session} {fields : Fields} (hname : s.name = t.name)
    (hcode : "code" ∈ fields.map Prod.fst) (hstart : "start" ∈ fields.map Prod.fst) :
    s.reset fields = t.reset fields := by
  obtain ⟨code, hcode⟩ := exists_lastText? hcode
  obtain ⟨start, hstart⟩ := exists_lastText? hstart
  simp [reset, takeEditor_eq, hcode, hstart, hname]

/-- A session after actions in turn. -/
def actAll (s : Session) (limits : Limits) (actions : List (Action × Fields)) : Session :=
  actions.foldl (fun s (action, fields) => s.act limits action fields) s

variable {limits : Limits}

@[simp] theorem actAll_nil (s : Session) : s.actAll limits [] = s := rfl

@[simp] theorem actAll_cons (s : Session) (action : Action) (fields : Fields)
    (actions : List (Action × Fields)) :
    s.actAll limits ((action, fields) :: actions) =
      (s.act limits action fields).actAll limits actions := rfl

theorem actAll_append (s : Session) (xs ys : List (Action × Fields)) :
    s.actAll limits (xs ++ ys) = (s.actAll limits xs).actAll limits ys := by
  simp [actAll]

@[simp] theorem name_act (s : Session) (action : Action) (fields : Fields) :
    (s.act limits action fields).name = s.name := by
  cases action <;> simp [act, run, reset, takeCells, takeEditor_eq]

theorem name_actAll (s : Session) (actions : List (Action × Fields)) :
    (s.actAll limits actions).name = s.name := by
  induction actions generalizing s with
  | nil => rfl
  | cons entry actions ih => rw [actAll_cons, ih, name_act]

end Session

/-! ### What requests leave of a session -/

namespace Server

variable {server : Server} {request : Request} {name other : String} {action : Action}
  {fields : Fields}

/-- An accepted request acts on its session, and is answered by a redirect or not at all. -/
theorem handle_of_submission? (h : request.submission? = some (other, action, fields)) :
    server.handle request = (Response.backTo? other, server.act other action fields) := by
  unfold Request.submission? at h
  split at h
  next segment action' hresource =>
    split at h
    next haccepted =>
      obtain ⟨hmethod, hform⟩ := haccepted
      obtain ⟨_, hname, e⟩ := Option.map_eq_some_iff.1 h
      cases e
      simp [handle, submit, hresource, hmethod, hform, hname, Resource.methods]
    · cases h
  · cases h

/-- Any other request leaves the limits and the sessions as they are. -/
theorem handle_of_submission?_eq_none (h : request.submission? = none) (name : String) :
    (server.handle request).2.limits = server.limits ∧
      (server.handle request).2.session name = server.session name := by
  unfold Request.submission? at h
  unfold handle
  cases hresource : Resource.ofPath? (Resource.pathOf request.target) with
  | none => exact ⟨rfl, rfl⟩
  | some resource =>
      dsimp only
      split
      · cases resource with
        | view v =>
            cases v with
            | entrance => exact ⟨rfl, rfl⟩
            | style => exact ⟨rfl, rfl⟩
            | page segment =>
                dsimp only [read]
                cases sessionName? segment with
                | none => exact ⟨rfl, rfl⟩
                | some opened => exact ⟨rfl, session_visit server opened name⟩
        | action segment action =>
            next hmethod =>
              dsimp only [submit]
              cases hname : sessionName? segment with
              | none => exact ⟨rfl, rfl⟩
              | some decoded =>
                  -- Its method is right, so it is refused for its form.
                  have hform : isForm request.contentType? = false := by
                    simpa [hresource, hname, List.mem_singleton.1 hmethod] using h
                  simp [hform]
      · exact ⟨rfl, rfl⟩

theorem limits_handle (server : Server) (request : Request) :
    (server.handle request).2.limits = server.limits := by
  cases h : request.submission? with
  | none => exact (handle_of_submission?_eq_none h "").1
  | some submission => rw [handle_of_submission? h, limits_act]

/-- **One request** does to a session what it submits to it. -/
theorem session_handle (server : Server) (request : Request) (name : String) :
    (server.handle request).2.session name =
      (server.session name).actAll server.limits (submissions name [request]) := by
  cases h : request.submission? with
  | none =>
      rw [(handle_of_submission?_eq_none h name).2, submissions_of_submission?_eq_none h,
        Session.actAll_nil]
  | some submission =>
      obtain ⟨other, action, fields⟩ := submission
      rw [handle_of_submission? h, session_act, submissions_of_submission? h]
      split
      next e =>
        subst e
        rfl
      · rfl

/-- **Requests in turn** do to a session what they submit to it. -/
theorem session_handleAll (server : Server) (requests : List Request) (name : String) :
    (server.handleAll requests).2.session name =
      (server.session name).actAll server.limits (submissions name requests) := by
  induction requests generalizing server with
  | nil => rfl
  | cons request requests ih =>
      rw [handleAll_cons, ih, session_handle, limits_handle, ← Session.actAll_append,
        ← submissions_cons]

/-- The page that is got shows the session as it is. -/
theorem handle_of_getsPage (h : request.GetsPage name) :
    (server.handle request).1 = some (.page (server.session name)) := by
  obtain ⟨hmethod, segment, hname, hresource⟩ := h
  simp [handle, read, hresource, hmethod, hname, Resource.methods]

/-- The page of a session shows what was submitted to it. -/
theorem handle_handleAll_of_getsPage (h : request.GetsPage name) (limits : Limits)
    (requests : List Request) :
    (((new limits).handleAll requests).2.handle request).1 =
      some (.page ((Session.new name).actAll limits (submissions name requests))) := by
  rw [handle_of_getsPage h, session_handleAll, session_new]
  rfl

/-- An answer that refuses a request is not given to one that is accepted. -/
theorem submission?_eq_none_of_refused {response : Response}
    (h : (server.handle request).1 = some response) (hstatus : response.status ≠ 303) :
    request.submission? = none := by
  rw [Option.eq_none_iff_forall_ne_some]
  rintro ⟨other, action, fields⟩ hs
  rw [handle_of_submission? hs] at h
  dsimp only [Response.backTo?] at h
  split at h
  · cases h
    exact hstatus rfl
  · cases h

end Server

theorem Request.submission?_eq_none_of_method {request : Request} (h : request.method ≠ "POST") :
    request.submission? = none := by
  unfold submission?
  split
  · rw [if_neg fun haccepted => h haccepted.1]
  · rfl

/-- What is submitted is submitted to the session that the path leads to. -/
theorem submissions_of_leadsTo {request : Request} {name other : String} (h : request.LeadsTo other)
    (hne : other ≠ name) : submissions name [request] = [] := by
  cases hs : request.submission? with
  | none => exact submissions_of_submission?_eq_none hs name
  | some submission =>
      obtain ⟨decoded, action, fields⟩ := submission
      have hdecoded : decoded = other := by
        have hs' := hs
        obtain ⟨segment, hname, hpage | ⟨action, haction⟩⟩ := h
        · simp [Request.submission?, hpage] at hs'
        · simp only [Request.submission?, haction, hname, Option.map_some] at hs'
          split at hs'
          · cases hs'
            rfl
          · cases hs'
      rw [submissions_of_submission? hs, hdecoded, if_neg hne]

/-! ### Two histories -/

/-- **Sessions are isolated.** Let two histories of a new server submit the same to a session, or
the same from some reset on that comes with both editor fields. Then its page is the same behind
both. So a request that only reads, that is refused or that leads to another session can be left
out. -/
theorem page_isolated {limits : Limits} {name : String} {xs ys : List Request} {get : Request}
    (hget : get.GetsPage name)
    (h : submissions name xs = submissions name ys ∨
      ∃ older older' newer fields, "code" ∈ fields.map Prod.fst ∧ "start" ∈ fields.map Prod.fst ∧
        submissions name xs = older ++ (.reset, fields) :: newer ∧
        submissions name ys = older' ++ (.reset, fields) :: newer) :
    (∃ s : Session, s.name = name ∧
      (((Server.new limits).handleAll xs).2.handle get).1 = some (.page s) ∧
      (((Server.new limits).handleAll ys).2.handle get).1 = some (.page s)) ∧
    ∀ before request after, xs = before ++ request :: after →
      (request.method = "GET" ∨
        (∃ response, (((Server.new limits).handleAll before).2.handle request).1 = some response ∧
          response.status ∈ [404, 405, 415, 400]) ∨
        ∃ other, request.LeadsTo other ∧ other ≠ name) →
      (((Server.new limits).handleAll xs).2.handle get).1 =
        (((Server.new limits).handleAll (before ++ after)).2.handle get).1 := by
  simp only [Server.handle_handleAll_of_getsPage hget]
  refine ⟨⟨_, Session.name_actAll _ _, rfl, ?_⟩, ?_⟩
  · rcases h with h | ⟨older, older', newer, fields, hcode, hstart, hx, hy⟩
    · rw [h]
    · -- What the reset finds has the same name in both histories.
      have hname (actions : List (Action × Fields)) :
          ((Session.new name).actAll limits actions).name = name := Session.name_actAll _ actions
      have hreset := Session.reset_eq_reset ((hname older').trans (hname older).symm) hcode hstart
      simp only [hx, hy, Session.actAll_append, Session.actAll_cons, Session.act, hreset]
  · rintro before request after rfl hsilent
    have hnone : submissions name [request] = [] := by
      rcases hsilent with hmethod | ⟨response, hresponse, hstatus⟩ | ⟨other, hleads, hne⟩
      · exact submissions_of_submission?_eq_none
          (Request.submission?_eq_none_of_method (by simp [hmethod])) name
      · refine submissions_of_submission?_eq_none
          (Server.submission?_eq_none_of_refused hresponse ?_) name
        rintro h303
        simp [h303] at hstatus
      · exact submissions_of_leadsTo hleads hne
    rw [submissions_append, submissions_cons, hnone, List.nil_append, submissions_append]

/-- A run, a look at another session and a reset by another spelling of the name, beside that reset
alone. -/
theorem page_isolated_reset :
    let limits : Limits := ⟨1000, none⟩
    let run : Request :=
      ⟨"POST", "/sessions/a/run", some formType, Form.encode [("cell-1-1", "7")]⟩
    let look : Request := ⟨"GET", "/sessions/b", none, []⟩
    let form : Fields := [("code", "; nothing"), ("start", "p")]
    let reset : Request := ⟨"POST", "/sessions/%61/reset", some formType, Form.encode form⟩
    let get : Request := ⟨"GET", "/sessions/a?again", none, []⟩
    get.GetsPage "a" ∧
      submissions "a" [run, look, reset] = [(.run, [("cell-1-1", "7")]), (.reset, form)] ∧
      submissions "a" [reset] = [(.reset, form)] ∧
      (∃ s : Session, s.name = "a" ∧
        (((Server.new limits).handleAll [run, look, reset]).2.handle get).1 = some (.page s) ∧
        (((Server.new limits).handleAll [reset]).2.handle get).1 = some (.page s)) ∧
      (((Server.new limits).handleAll [run, look, reset]).2.handle get).1 =
        (((Server.new limits).handleAll [run, reset]).2.handle get).1 := by
  intro limits run look form reset get
  have hget : get.GetsPage "a" := ⟨rfl, ['a'], by decide +kernel, by decide +kernel⟩
  have hxs : submissions "a" [run, look, reset] =
      [(.run, [("cell-1-1", "7")]), (.reset, form)] := by decide +kernel
  have hys : submissions "a" [reset] = [(.reset, form)] := by decide +kernel
  obtain ⟨hpage, hsilent⟩ := @page_isolated limits "a" _ _ get hget
    (.inr ⟨[(.run, [("cell-1-1", "7")])], [], [], form, by simp [form], by simp [form], hxs, hys⟩)
  exact ⟨hget, hxs, hys, hpage, hsilent [run] look [reset] rfl (.inl rfl)⟩

end GridLang.Playground
