import DocWeaver.Proofs.Hosting.Refusals

/-!
Reading the file list of a pull request page by page.

The client asks for the pages of the list in turn, a hundred entries to a page, and stops after
the first page that is not full. Each entry of the list names a file; the client enters every
file that was not removed into the change set with its status, its changed lines and its
earlier name (`itemEntry`), and leaves out removed files.

Against a host that sends given replies in turn (`Transport.replies`), one page read sends one
request for that page and enters the page's files after those entered before
(`readPage_replies`), and the page loop goes on exactly after a full page (`run_pagesFrom`). So
the whole call sends exactly the requests for pages 1 to m, where page m is the first that is not
full, consumes exactly m replies, and returns the entries of all listed files that were not
removed, in the order listed (`pullRequestChanges_reads_until_short_page`).
-/

namespace DocWeaver.Hosting

/-- A host that answers each request with the next of its replies, whatever the request; the
transport's state is the replies not yet sent. A host with no reply left fails to answer. -/
def Transport.replies : Transport (List HttpResponse) := fun rs _ =>
  match rs with
  | r :: rest => (.ok r, rest)
  | [] => (.error "no reply", [])

/-- A successful reply whose body is the JSON list of `items`. -/
def PageReply (r : HttpResponse) (items : List JsonValue) : Prop :=
  r.status < 400 ∧ JsonValue.parse r.body = some (.arr items)

/-- What a request asks for: its method, path and query. -/
def HttpRequest.call (q : HttpRequest) : String × String × List (String × String) :=
  (q.method, q.url, q.params)

def filesCall (repo : RepositoryConfig) (number : Int) (page : Nat) :
    String × String × List (String × String) :=
  ("GET", "/repos/" ++ repo.owner ++ "/" ++ repo.name ++ "/pulls/" ++ toString number ++ "/files",
    [("page", toString page), ("per_page", "100")])

/-! ### Entries of the file list -/

def textField (item : JsonValue) (k : String) : Option String :=
  (item.field? k).bind JsonValue.str?

def IsText : Option JsonValue → Prop
  | some (.str _) => True
  | _ => False

def TextOrNull : Option JsonValue → Prop
  | none | some .null | some (.str _) => True
  | _ => False

instance : DecidablePred IsText := fun v =>
  match v with
  | some (.str _) => isTrue trivial
  | none | some .null | some (.bool _) | some (.int _) | some (.num _) | some (.arr _)
  | some (.obj _) => isFalse id

instance : DecidablePred TextOrNull := fun v =>
  match v with
  | none | some .null | some (.str _) => isTrue trivial
  | some (.bool _) | some (.int _) | some (.num _) | some (.arr _) | some (.obj _) => isFalse id

/-- An entry of a pull request's file list: an object whose `filename` is text and whose
`status`, `patch` and `previous_filename` are absent, null or text. -/
def FileItem : JsonValue → Prop
  | .obj fs => IsText (fs.lookup "filename") ∧ TextOrNull (fs.lookup "status") ∧
      TextOrNull (fs.lookup "patch") ∧ TextOrNull (fs.lookup "previous_filename")
  | _ => False

instance : DecidablePred FileItem := fun item =>
  match item with
  | .obj fs => inferInstanceAs (Decidable (IsText (fs.lookup "filename") ∧ _ ∧ _ ∧ _))
  | .null | .bool _ | .int _ | .num _ | .str _ | .arr _ => isFalse id

/-- The file an entry names. -/
def itemName (item : JsonValue) : String := (textField item "filename").getD ""

def itemStatus (item : JsonValue) : ChangeStatus :=
  ((textField item "status").bind ChangeStatus.ofLabel?).getD .modified

def itemRanges (item : JsonValue) : List LineRange :=
  match textField item "patch" with
  | some p => parsePatchRanges p
  | none => if itemStatus item = .added ∨ itemStatus item = .modified then [wholeFile] else []

def itemEntry (item : JsonValue) : Option (String × FileChange) :=
  if itemStatus item = .removed then none
  else some (itemName item,
    { path := itemName item, status := itemStatus item, ranges := itemRanges item,
      previousPath := textField item "previous_filename" })

theorem textOrNull_cases {v : Option JsonValue} (h : TextOrNull v) :
    v = none ∨ v = some .null ∨ ∃ t, v = some (.str t) := by
  match v, h with
  | none, _ => exact .inl rfl
  | some .null, _ => exact .inr (.inl rfl)
  | some (.str t), _ => exact .inr (.inr ⟨t, rfl⟩)

theorem statusOf_of_textOrNull {v : Option JsonValue} (h : TextOrNull v) :
    statusOf v = .ok (((v.bind JsonValue.str?).bind ChangeStatus.ofLabel?).getD .modified) := by
  rcases textOrNull_cases h with rfl | rfl | ⟨t, rfl⟩ <;> rfl

theorem changeOf_of_fileItem {item : JsonValue} (h : FileItem item) :
    changeOf item = .ok ((itemEntry item).map (·.2)) := by
  cases item with
  | obj fs =>
    obtain ⟨hname, hstatus, hpatch, hprevious⟩ := h
    obtain ⟨name, hname⟩ : ∃ name, fs.lookup "filename" = some (.str name) := by
      revert hname
      rcases fs.lookup "filename" with _ | _ | _ | _ | _ | name | _ | _ <;> simp [IsText]
    have hstatus := statusOf_of_textOrNull hstatus
    have hpatch := textOrNull_cases hpatch
    have hprevious := textOrNull_cases hprevious
    simp only [changeOf, fieldOpt, field, hname, bind, Except.bind, hstatus, pure, Except.pure]
    unfold itemEntry itemRanges itemStatus itemName textField
    simp only [JsonValue.field?, hname]
    rcases hpatch with hp | hp | ⟨p, hp⟩ <;> rcases hprevious with hq | hq | ⟨q, hq⟩ <;>
      simp [hp, hq, JsonValue.shown, JsonValue.str?] <;> split <;> rfl
  | null | bool _ | int _ | num _ | str _ | arr _ => exact h.elim

/-! ### Entering the files of a page -/

def enterItem (cs : ChangeSet) (item : JsonValue) : ChangeSet :=
  match itemEntry item with
  | some (_, ch) => cs.insert ch
  | none => cs

theorem itemEntry_fst {item : JsonValue} {e : String × FileChange} (h : itemEntry item = some e) :
    e.1 = itemName item ∧ e.2.path = itemName item := by
  unfold itemEntry at h
  split at h
  · cases h
  · cases h
    exact ⟨rfl, rfl⟩

theorem ChangeSet.insert_fresh {cs : ChangeSet} {ch : FileChange}
    (h : ch.path ∉ cs.files.map Prod.fst) : cs.insert ch = ⟨cs.files ++ [(ch.path, ch)]⟩ := by
  have hnot : cs.contains ch.path = false := by
    rw [ChangeSet.contains, List.any_eq_false]
    intro p hp heq
    exact h (List.mem_map.mpr ⟨p, hp, by simpa using heq⟩)
  simp [ChangeSet.insert, hnot]

theorem foldl_enter_fresh :
    ∀ (items : List JsonValue) (cs : ChangeSet), (items.map itemName).Nodup →
      (∀ item ∈ items, itemName item ∉ cs.files.map Prod.fst) →
      items.foldl enterItem cs = ⟨cs.files ++ items.filterMap itemEntry⟩
  | [], cs, _, _ => by simp
  | item :: items, cs, hnames, hfresh => by
    rw [List.map_cons, List.nodup_cons] at hnames
    have hothers : ∀ i ∈ items, itemName i ∉ cs.files.map Prod.fst :=
      fun i hi => hfresh i (List.mem_cons_of_mem item hi)
    rw [List.foldl_cons, List.filterMap_cons]
    cases hentry : itemEntry item with
    | none =>
      rw [enterItem, hentry]
      exact foldl_enter_fresh items cs hnames.2 hothers
    | some e =>
      obtain ⟨hname, hpath⟩ := itemEntry_fst hentry
      obtain ⟨n, ch⟩ := e
      simp only at hname hpath
      subst hname
      rw [enterItem, hentry]
      dsimp only
      rw [ChangeSet.insert_fresh (hpath ▸ hfresh item List.mem_cons_self), hpath]
      rw [foldl_enter_fresh items _ hnames.2 fun i hi => ?_]
      · simp
      · simp only [List.map_append, List.map_cons, List.map_nil, List.mem_append,
          List.mem_singleton, not_or]
        exact ⟨hothers i hi, fun h => hnames.1 (h ▸ List.mem_map_of_mem hi)⟩

theorem run_lift_ok {σ' α : Type} (a : α) (st : σ') :
    (GitHubClient.lift (.ok a) : Hosted σ' α).run.run st = (.ok a, st) := rfl

theorem run_foldlM_of_pure {σ' α β : Type} {f : β → α → Hosted σ' β} {g : β → α → β} :
    ∀ (l : List α) (b : β) (st : σ'), (∀ a ∈ l, ∀ b st, (f b a).run.run st = (.ok (g b a), st)) →
      (l.foldlM f b).run.run st = (.ok (l.foldl g b), st)
  | [], b, st, _ => rfl
  | a :: l, b, st, h => by
    rw [List.foldlM_cons, run_bind_run, h a List.mem_cons_self]
    exact run_foldlM_of_pure l (g b a) st fun a' ha' => h a' (List.mem_cons_of_mem a ha')

/-! ### Counting and reading the pages -/

theorem run_pagesFrom {σ' : Type} [Nonempty σ'] (c : GitHubClient σ') (number : Int) (page : Nat)
    (cs : ChangeSet) (st : σ') :
    (c.pagesFrom number page cs).run.run st = match (c.readPage number page cs).run.run st with
      | (.ok (cs, true), st) => (c.pagesFrom number (page + 1) cs).run.run st
      | (.ok (cs, false), st) => (.ok cs, st)
      | (.error e, st) => (.error e, st) := by
  rw [GitHubClient.pagesFrom, repeatM_eq_of_monadTail]
  dsimp only [repeatM.body]
  rw [run_bind_run, run_bind_run]
  rcases (c.readPage number page cs).run.run st with ⟨_ | ⟨cs', _ | _⟩, st'⟩ <;> rfl

/-! ### One page -/

section Replies

variable {c : GitHubClient (List HttpResponse)}

def repliesClient (repo : RepositoryConfig) (token : String) : GitHubClient (List HttpResponse) :=
  ⟨repo, token, Transport.replies⟩

theorem request_replies (hc : c.transport = Transport.replies) (method url : String)
    (allowed : List Nat) (params : List (String × String)) (body : Option JsonValue)
    {r : HttpResponse} (hr : r.status < 400) (rest : List HttpResponse) (log : List Exchange) :
    ∃ e : Exchange, (c.logged.request method url allowed params body).run.run (r :: rest, log) =
      (.ok r, (rest, log ++ [e])) ∧ e.request.call = (method, url, params) := by
  have hkept : ¬(400 ≤ r.status ∧ r.status ∉ allowed) := fun h => absurd h.1 (by omega)
  unfold GitHubClient.request
  rw [run_bind_run, run_modifyGet]
  simp [GitHubClient.logged, Transport.logged, hc, Transport.replies, hkept]
  exact ⟨_, rfl, rfl⟩

theorem readPage_replies (hc : c.transport = Transport.replies) (number : Int) (page : Nat)
    (cs : ChangeSet) {r : HttpResponse} {items : List JsonValue} (hr : PageReply r items)
    (hitems : ∀ item ∈ items, FileItem item) (hnames : (items.map itemName).Nodup)
    (hfresh : ∀ item ∈ items, itemName item ∉ cs.files.map Prod.fst)
    (rest : List HttpResponse) (log : List Exchange) :
    ∃ e : Exchange, (c.logged.readPage number page cs).run.run (r :: rest, log) =
      (.ok (⟨cs.files ++ items.filterMap itemEntry⟩, pageSize ≤ items.length), (rest, log ++ [e])) ∧
      e.request.call = filesCall c.repository number page := by
  obtain ⟨e, hrequest, hcall⟩ := request_replies hc "GET" (c.repoPath s!"/pulls/{number}/files") []
    [("page", toString page), ("per_page", toString pageSize)] none hr.1 rest log
  refine ⟨e, ?_, ?_⟩
  · unfold GitHubClient.readPage
    have hjson : jsonOf r = .ok (.arr items) := by
      simp only [jsonOf, hr.2]
    rw [run_bind_run]
    erw [hrequest]
    dsimp only
    rw [run_bind_run, hjson, run_lift_ok]
    dsimp only
    rw [run_bind_run, show pageItems (.arr items) = .ok items from rfl, run_lift_ok]
    dsimp only
    rw [run_bind_run, @run_foldlM_of_pure _ _ _ _ enterItem items cs _ ?_,
      foldl_enter_fresh items cs hnames hfresh]
    · rfl
    intro item hitem b st
    rw [run_bind_run, changeOf_of_fileItem (hitems item hitem)]
    unfold enterItem
    cases itemEntry item <;> rfl
  · have hpath : s!"/pulls/{number}/files" = "/pulls/" ++ toString number ++ "/files" := rfl
    have hsize : toString pageSize = "100" := rfl
    rw [hcall]
    simp only [filesCall, GitHubClient.repoPath, hpath, hsize, String.append_assoc]

theorem mem_names_of_entered {items : List JsonValue} {n : String}
    (h : n ∈ (items.filterMap itemEntry).map Prod.fst) : n ∈ items.map itemName := by
  obtain ⟨e, he, rfl⟩ := List.mem_map.mp h
  obtain ⟨item, hitem, hentry⟩ := List.mem_filterMap.mp he
  rw [(itemEntry_fst hentry).1]
  exact List.mem_map_of_mem hitem

/-- Against full pages and then one that is not full, the page loop sends one request per page and
enters the files of all pages in the order they were listed. -/
theorem pagesFrom_replies (hc : c.transport = Transport.replies) (number : Int)
    {rLast : HttpResponse} {last : List JsonValue} (hlast : PageReply rLast last)
    (hshort : last.length < pageSize) (rest : List HttpResponse) :
    ∀ {replies : List HttpResponse} {full : List (List JsonValue)},
      List.Forall₂ PageReply replies full → (∀ items ∈ full, pageSize ≤ items.length) →
      ∀ (page : Nat) (cs : ChangeSet) (log : List Exchange),
      (∀ item ∈ (full ++ [last]).flatten, FileItem item) →
      ((full ++ [last]).flatten.map itemName).Nodup →
      (∀ item ∈ (full ++ [last]).flatten, itemName item ∉ cs.files.map Prod.fst) →
      ∃ sent : List Exchange,
        (c.logged.pagesFrom number page cs).run.run (replies ++ rLast :: rest, log) =
          (.ok ⟨cs.files ++ (full ++ [last]).flatten.filterMap itemEntry⟩, (rest, log ++ sent)) ∧
        sent.map (·.request.call) =
          (List.range' page (full.length + 1)).map (filesCall c.repository number) := by
  intro replies full hreplies
  induction hreplies with
  | nil =>
    -- the last page is not full, so the loop ends with it
    intro _ page cs log hitems hnames hfresh
    simp only [List.nil_append, List.flatten_cons, List.flatten_nil, List.append_nil]
      at hitems hnames hfresh ⊢
    obtain ⟨e, hread, hcall⟩ := readPage_replies hc number page cs hlast hitems hnames hfresh rest log
    have hnotFull : decide (pageSize ≤ last.length) = false := by
      simpa using hshort
    refine ⟨[e], ?_, by simp [hcall]⟩
    rw [run_pagesFrom, hread, hnotFull]
  | @cons r items replies full hr hreplies ih =>
    intro hfull page cs log hitems hnames hfresh
    have hsplit : (items :: full ++ [last]).flatten = items ++ (full ++ [last]).flatten := by
      simp
    rw [hsplit] at hitems hnames hfresh ⊢
    rw [List.map_append, List.nodup_append] at hnames
    obtain ⟨e, hread, hcall⟩ := readPage_replies hc number page cs hr
      (fun i hi => hitems i (List.mem_append_left _ hi)) hnames.1
      (fun i hi => hfresh i (List.mem_append_left _ hi)) (replies ++ rLast :: rest) log
    have hfull' : decide (pageSize ≤ items.length) = true := by
      simpa using hfull items List.mem_cons_self
    -- the files of later pages are listed neither before nor on this page
    have hfresh' : ∀ item ∈ (full ++ [last]).flatten,
        itemName item ∉ (cs.files ++ items.filterMap itemEntry).map Prod.fst := by
      intro item hitem hmem
      rw [List.map_append, List.mem_append] at hmem
      rcases hmem with hmem | hmem
      · exact hfresh item (List.mem_append_right _ hitem) hmem
      · exact hnames.2.2 _ (mem_names_of_entered hmem) _ (List.mem_map_of_mem hitem) rfl
    obtain ⟨sent, hrun, hsent⟩ := ih
      (fun i hi => hfull i (List.mem_cons_of_mem items hi)) (page + 1) _ (log ++ [e])
      (fun i hi => hitems i (List.mem_append_right _ hi)) hnames.2.1 hfresh'
    refine ⟨e :: sent, ?_, ?_⟩
    · rw [run_pagesFrom, List.cons_append, hread, hfull']
      dsimp only
      rw [hrun]
      simp
    · simp [hcall, hsent, List.range'_succ]

end Replies

/-! ### The file list of a pull request -/

/-- Against a host that replies with full pages of a pull request's file list and then with one
that is not full, the client asks for pages 1 to m in order, one request each, where page m is
the first page that is not full: a page of exactly a hundred entries is followed by another
request. It takes exactly m replies, and returns every listed file that was not removed, in the
order listed, with its status, its changed lines and its earlier name. -/
theorem pullRequestChanges_reads_until_short_page (repo : RepositoryConfig) (token : String)
    (number : Int) {replies : List HttpResponse} {full : List (List JsonValue)}
    (hreplies : List.Forall₂ PageReply replies full) (hfull : ∀ items ∈ full, 100 ≤ items.length)
    {rLast : HttpResponse} {last : List JsonValue} (hlast : PageReply rLast last)
    (hshort : last.length < 100) (rest : List HttpResponse)
    (hitems : ∀ item ∈ (full ++ [last]).flatten, FileItem item)
    (hnames : ((full ++ [last]).flatten.map itemName).Nodup) :
    let out := ((repliesClient repo token).logged.pullRequestChanges number).run.run
      (replies ++ rLast :: rest, [])
    out.1 = .ok ⟨(full ++ [last]).flatten.filterMap itemEntry⟩ ∧ out.2.1 = rest ∧
      out.2.2.map (·.request.call) = (List.range' 1 (full.length + 1)).map (filesCall repo number) := by
  obtain ⟨sent, hrun, hsent⟩ := pagesFrom_replies (c := repliesClient repo token) rfl number
    hlast hshort rest hreplies hfull 1 {} [] hitems hnames (by simp)
  intro out
  have hout : out = (.ok ⟨(full ++ [last]).flatten.filterMap itemEntry⟩, (rest, sent)) := by
    show ((repliesClient repo token).logged.pagesFrom number 1 {}).run.run
      (replies ++ rLast :: rest, []) = _
    rw [hrun]
    simp
  rw [hout]
  exact ⟨rfl, rfl, hsent⟩

def bodyItems (body : String) : List JsonValue :=
  match JsonValue.parse body with
  | some (.arr items) => items
  | _ => []

def isListBody (body : String) : Bool :=
  match JsonValue.parse body with
  | some (.arr _) => true
  | _ => false

theorem pageReply_bodyItems {r : HttpResponse} (hs : r.status < 400)
    (hb : isListBody r.body = true) : PageReply r (bodyItems r.body) := by
  refine ⟨hs, ?_⟩
  unfold isListBody at hb
  unfold bodyItems
  split at hb
  · rename_i items h
    rw [h]
  · cases hb

/-- A pull request whose file list fits on one page, with a removed file, a renamed one and a
modified one with its patch: one request, for page 1, and the renamed and modified files. -/
theorem one_short_page_lists_kept_files :
    let repo : RepositoryConfig := ⟨"acme", "widgets", some "t0k", "https://api.github.com"⟩
    let reply : HttpResponse := ⟨200, "[\x7b\"filename\":\"src/gone.ts\",\"status\":\"removed\"\x7d,\x7b\"filename\":\"src/new.ts\",\"status\":\"renamed\",\"previous_filename\":\"src/old.ts\"\x7d,\x7b\"filename\":\"src/a.ts\",\"status\":\"modified\",\"patch\":\"@@ -1 +1,2 @@\\n x\\n+y\"\x7d]"⟩
    let out := ((repliesClient repo "t0k").logged.pullRequestChanges 7).run.run ([reply], [])
    PageReply reply (bodyItems reply.body) ∧ (bodyItems reply.body).length < 100 ∧
      (∀ item ∈ bodyItems reply.body, FileItem item) ∧
      ((bodyItems reply.body).map itemName).Nodup ∧
      out.1 = .ok ⟨(bodyItems reply.body).filterMap itemEntry⟩ ∧ out.2.1 = [] ∧
      out.2.2.map (·.request.call) = [filesCall repo 7 1] := by
  intro repo reply out
  have hbody : isListBody reply.body = true ∧ (bodyItems reply.body).length < 100 ∧
      (∀ item ∈ bodyItems reply.body, FileItem item) ∧ ((bodyItems reply.body).map itemName).Nodup := by
    decide +kernel
  have hreply : PageReply reply (bodyItems reply.body) := pageReply_bodyItems (by decide) hbody.1
  have hpage := hbody.2
  obtain ⟨hresult, hrest, hcalls⟩ := pullRequestChanges_reads_until_short_page repo "t0k" 7
    List.Forall₂.nil (by simp) hreply hpage.1 [] (by simpa using hpage.2.1) (by simpa using hpage.2.2)
  refine ⟨hreply, hpage.1, hpage.2.1, hpage.2.2, ?_, hrest, ?_⟩
  · simpa using hresult
  · simpa using hcalls

end DocWeaver.Hosting
