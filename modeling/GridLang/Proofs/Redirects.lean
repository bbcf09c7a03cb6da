import GridLang.Proofs.PageMarkup
import GridLang.Proofs.SegmentNames
import GridLang.Proofs.SessionIsolation

/-!
# GridLang.Proofs.Redirects

**Where a redirect leads.** After an action the answer points to the page of the session by its
name as it is, not percent-encoded again. So it leads back to the session if the name stands for
itself in a path (`StandsInPath`), and to something else if it does not.

A client is taken to ask for the location as the text that it is. Whether it can is another
question: a name with a blank, `<`, `>` or a backtick stands for itself, but no request line can
hold such a location as it is, so a client has to encode these characters before it asks.

* `standsInPath_iff`: the path of a name leads to a segment that is decoded to the name if and only
  if the name stands for itself.
* `Session.name_eq_of_pageText_eq`: a page tells the name of its session.
* `Server.redirect_leads_back`: so the redirect leads back if and only if the name stands for
  itself.
-/

namespace GridLang.Playground

/-! ### Paths of names -/

/-- A name stands for itself in a path: it is not empty, nothing in it separates segments or ends
the path, and nothing in it is decoded. It may hold characters that a request line cannot hold as
they are (blanks, `<`, `>`, backticks). -/
structure StandsInPath (name : String) : Prop where
  /-- There is a page only for a segment that is not empty. -/
  ne_empty : name ≠ ""
  /-- It is one segment. -/
  slash_not_mem : '/' ∉ name.toList
  /-- No query and no fragment starts in it. -/
  endsPath_eq_false : ∀ c ∈ name.toList, Resource.endsPath c = false
  /-- No percent sign in it has two hexadecimal digits behind it. -/
  not_hasGroup : ¬ Percent.HasGroup name.toList

namespace Resource

/-- The path of a name ends where a query or a fragment starts in it. -/
theorem pathOf_path (name : String) :
    pathOf (Session.path name) = "/sessions/".toList ++ name.toList.takeWhile (!endsPath ·) := by
  have htarget : (Session.path name).toList = '/' :: ("sessions/".toList ++ name.toList) := by
    rw [Session.path, String.toList_append]
    rfl
  rw [pathOf, htarget]
  show '/' :: List.takeWhile _ _ = _
  rw [List.takeWhile_append_of_pos (List.all_eq_true.1 (by decide))]
  rfl

theorem splitOn_path (rest : List Char) :
    ("/sessions/".toList ++ rest).splitOn '/' = [] :: "sessions".toList :: rest.splitOn '/' := by
  have hfirst : ([] ++ '/' :: ("sessions".toList ++ '/' :: rest)).splitOn '/' =
      [] :: ("sessions".toList ++ '/' :: rest).splitOn '/' :=
    List.splitOn_append_cons_self_of_not_mem List.not_mem_nil _
  rwa [List.splitOn_append_cons_self_of_not_mem (by decide)] at hfirst

/-- Behind the collection of sessions, one segment that is not empty leads to a page, and nothing
else does. -/
theorem ofPath?_eq_page_iff {segment rest : List Char} :
    ofPath? ("/sessions/".toList ++ rest) = some (.view (.page segment)) ↔
      segment = rest ∧ rest ≠ [] ∧ '/' ∉ rest := by
  rw [ofPath?, splitOn_path]
  by_cases hslash : '/' ∈ rest
  · obtain ⟨⟨front, back⟩, hcut⟩ :=
      Option.ne_none_iff_exists'.1 fun h => Text.cut_eq_none_iff.1 h hslash
    obtain ⟨rfl, hfront⟩ := Text.cut_eq_some_iff.1 hcut
    rw [List.splitOn_append_cons_self_of_not_mem hfront]
    obtain ⟨next, more, hback⟩ := List.exists_cons_of_ne_nil (List.splitOn_ne_nil '/' back)
    rw [hback]
    -- Two segments can only be an action.
    refine ⟨fun h => ?_, fun h => absurd hslash h.2.2⟩
    split at h <;> simp_all
  · rw [List.splitOn_eq_singleton hslash]
    by_cases hrest : rest = []
    · subst hrest
      simp
    · simp [hrest, hslash]
      exact eq_comm

end Resource

/-- The path of a name leads to a segment that is decoded to the name if and only if the name
stands for itself. -/
theorem standsInPath_iff {name : String} :
    StandsInPath name ↔ ∃ segment, sessionName? segment = some name ∧
      Resource.ofPath? (Resource.pathOf (Session.path name)) = some (.view (.page segment)) := by
  have hprefix : name.toList.takeWhile (!Resource.endsPath ·) <+: name.toList :=
    List.takeWhile_prefix _
  simp only [Resource.pathOf_path, Resource.ofPath?_eq_page_iff]
  constructor
  · rintro ⟨hne, hslash, hends, hgroup⟩
    have hwhole : name.toList.takeWhile (!Resource.endsPath ·) = name.toList :=
      List.takeWhile_eq_self_iff.2 fun c hc => by simp [hends c hc]
    rw [hwhole]
    exact ⟨_, (sessionName?_of_prefix_iff List.prefix_rfl).2 ⟨rfl, hgroup⟩, rfl, by simpa, hslash⟩
  · rintro ⟨segment, hname, rfl, hne, hslash⟩
    obtain ⟨hwhole, hgroup⟩ := (sessionName?_of_prefix_iff hprefix).1 hname
    rw [hwhole] at hne hslash
    refine ⟨by simpa using hne, hslash, fun c hc => ?_, hgroup⟩
    simpa using List.takeWhile_eq_self_iff.1 hwhole c hc

/-! ### Pages and names -/

theorem Session.find?_form_tags (s : Session) :
    s.page.tags.find? (fun tag => tag.name = "form") =
      some ⟨"form", [("method", "post"), ("action", Session.path s.name ++ "/run")]⟩ := by
  simp [page, head, form, Html.tags, Html.tagsAll]

/-- **A page tells the name of its session**: its form is sent to the path of the name. -/
theorem Session.name_eq_of_pageText_eq {s t : Session} (h : s.pageText = t.pageText) :
    s.name = t.name := by
  have hpage : s.page.render = t.page.render := by simpa [Session.pageText] using h
  have htags : s.page.tags = t.page.tags := by
    rw [← Html.readTags_render s.wellNamed_page, hpage, Html.readTags_render t.wellNamed_page]
  have hform := s.find?_form_tags
  rw [htags, t.find?_form_tags] at hform
  have hpath : Session.path t.name = Session.path s.name := by simpa using hform
  simpa [Session.path] using hpath.symm

/-! ### Redirects -/

namespace Server

variable {server : Server} {request : Request}

/-- Only to get the page of a session is answered by a page. -/
theorem exists_getsPage_of_page {s : Session} (hmethod : request.method = "GET")
    (h : (server.handle request).1 = some (.page s)) :
    ∃ name, request.GetsPage name ∧ (server.session name).pageText = s.pageText := by
  cases hresource : Resource.ofPath? (Resource.pathOf request.target) with
  | none =>
      simp [handle, hresource, Response.notFound, Response.page] at h
  | some resource =>
      cases resource with
      | action segment action =>
          simp [handle, hresource, hmethod, Resource.methods, Response.methodNotAllowed,
            Response.page] at h
      | view v =>
          have hread : (server.read v).1 = .page s := by
            simpa [handle, hresource, hmethod, Resource.methods] using h
          cases v with
          | entrance => simp [read, Response.toFreshSession, Response.page] at hread
          | style => simp [read, Response.style, Response.page, Response.pageType] at hread
          | page segment =>
              rw [read] at hread
              cases hname : sessionName? segment with
              | none => simp [hname, Response.invalidName, Response.page] at hread
              | some name =>
                  refine ⟨name, ⟨hmethod, segment, hname, hresource⟩, ?_⟩
                  simpa [hname, Response.page] using hread

theorem limits_handleAll (server : Server) (requests : List Request) :
    (server.handleAll requests).2.limits = server.limits := by
  induction requests generalizing server with
  | nil => rfl
  | cons request requests ih => rw [handleAll_cons, ih, limits_handle]

theorem name_session_handle (server : Server) (request : Request) (name : String) :
    ((server.handle request).2.session name).name = (server.session name).name := by
  rw [session_handle, Session.name_actAll]

theorem name_session_handleAll (server : Server) (requests : List Request) (name : String) :
    ((server.handleAll requests).2.session name).name = (server.session name).name := by
  rw [session_handleAll, Session.name_actAll]

/-- **Where a redirect leads.** An accepted request acts on its session. It is answered by a
redirect to the path of the name, unless no header can hold the name. To get that path is answered
by the page of the session, as the action has left it, if and only if the name stands for itself in
a path. -/
theorem redirect_leads_back (limits : Limits) (history : List Request) {post follow : Request}
    {name freshName : String} {action : Action} {fields : Fields}
    (hpost : post.submission? = some (name, action, fields)) (hmethod : follow.method = "GET")
    (htarget : follow.target = (Location.session name).text freshName) :
    let before := ((new limits).handleAll history).2
    let after := (before.handle post).2
    after.session name = (before.session name).act limits action fields ∧
      (before.handle post).1 = (if fitsHeader name then
        some { status := 303, location? := some (.session name) } else none) ∧
      ((after.handle follow).1 = some (.page (after.session name)) ↔ StandsInPath name) := by
  intro before after
  have hafter : after = before.act name action fields := by
    show (before.handle post).2 = _
    rw [handle_of_submission? hpost]
  have hlimits : before.limits = limits := limits_handleAll (new limits) history
  have hname (other : String) : (after.session other).name = other := by
    rw [name_session_handle, name_session_handleAll, session_new]
    rfl
  refine ⟨?_, ?_, ?_⟩
  · rw [hafter, session_act, if_pos rfl, hlimits]
  · rw [handle_of_submission? hpost]
    rfl
  · rw [standsInPath_iff]
    constructor
    · intro hpage
      obtain ⟨other, ⟨-, segment, hother, hsegment⟩, htext⟩ := exists_getsPage_of_page hmethod hpage
      have hsame := Session.name_eq_of_pageText_eq htext
      rw [hname, hname] at hsame
      subst hsame
      rw [htarget] at hsegment
      exact ⟨segment, hother, hsegment⟩
    · rintro ⟨segment, hother, hsegment⟩
      exact handle_of_getsPage ⟨hmethod, segment, hother, by rw [htarget]; exact hsegment⟩

/-- A name with a percent sign in it that nothing is decoded behind. -/
theorem redirect_leads_back_percent :
    let limits : Limits := ⟨1000, none⟩
    let look : Request := ⟨"GET", "/sessions/50%25-off", none, []⟩
    let post : Request := ⟨"POST", "/sessions/50%25-off/run", some formType, []⟩
    let follow : Request := ⟨"GET", "/sessions/50%-off", none, []⟩
    let after := (((new limits).handleAll [look]).2.handle post).2
    post.submission? = some ("50%-off", .run, []) ∧ StandsInPath "50%-off" ∧
      (((new limits).handleAll [look]).2.handle post).1 =
        some { status := 303, location? := some (.session "50%-off") } ∧
      (after.handle follow).1 = some (.page (after.session "50%-off")) := by
  intro limits look post follow after
  have hpost : post.submission? = some ("50%-off", .run, []) := by decide +kernel
  have hstands : StandsInPath "50%-off" :=
    ⟨by decide, by decide +kernel, by simp [Resource.endsPath], by decide +kernel⟩
  obtain ⟨-, hanswer, hback⟩ :=
    @redirect_leads_back limits [look] post follow "50%-off" "" .run [] hpost rfl rfl
  exact ⟨hpost, hstands, hanswer, hback.2 hstands⟩

/-- A redirect need not lead back: what stands behind a question mark is taken for a query, and the
page of another session is got. -/
theorem redirect_leads_astray :
    let limits : Limits := ⟨1000, none⟩
    let post : Request := ⟨"POST", "/sessions/a%3Fb/reset", some formType, []⟩
    let follow : Request := ⟨"GET", "/sessions/a?b", none, []⟩
    let after := ((new limits).handle post).2
    post.submission? = some ("a?b", .reset, []) ∧
      ((new limits).handle post).1 =
        some { status := 303, location? := some (.session "a?b") } ∧
      follow.target = (Location.session "a?b").text "" ∧
      (after.handle follow).1 ≠ some (.page (after.session "a?b")) := by
  intro limits post follow after
  have hpost : post.submission? = some ("a?b", .reset, []) := by decide +kernel
  have hget : follow.GetsPage "a" := ⟨rfl, ['a'], by decide +kernel, by decide +kernel⟩
  have hname (other : String) : (after.session other).name = other := by
    rw [name_session_handle, session_new]
    rfl
  refine ⟨hpost, ?_, rfl, ?_⟩
  · rw [handle_of_submission? hpost]
    rfl
  · rw [handle_of_getsPage hget]
    intro hpage
    have htext : (after.session "a").pageText = (after.session "a?b").pageText :=
      congrArg Response.body (Option.some.inj hpage)
    have hsame := Session.name_eq_of_pageText_eq htext
    rw [hname, hname] at hsame
    exact absurd hsame (by decide)

end Server

end GridLang.Playground
