import ChannelFeed.Proofs.Session.Requests
import ChannelFeed.Proofs.Session.Ruling
import ChannelFeed.Proofs.Session.States

namespace ChannelFeed.Session

variable {s t : Session} {x : Step} {past : Past}

/-- A request that is put on a connection, or a frame that is handled there. -/
inductive Exchange where
  | request (r : Request)
  | frame (text : String)

def Exchange.request? : Exchange → Option Request
  | request r => some r
  | frame _ => none

/-- The last request of some exchanges. -/
def latest (exchanges : List Exchange) : Option Request :=
  (exchanges.filterMap Exchange.request?).getLast?

/-- The response that an exchange is, if it answers the latest of the requests before. -/
def Exchange.answer? (earlier : List Exchange) : Exchange → Option Response
  | request _ => none
  | frame text =>
    (responseOf text).filter (fun a => (latest earlier).any (fun r => a.id == some r.id.text))

def countedAfter (earlier : List Exchange) : List Exchange → List Response
  | [] => []
  | e :: rest => (e.answer? earlier).toList ++ countedAfter (earlier ++ [e]) rest

/-- The responses among some exchanges that count. -/
def counted (exchanges : List Exchange) : List Response := countedAfter [] exchanges

/-- What the last response that counts leaves standing. -/
def verdict (exchanges : List Exchange) : Option Rejection :=
  (counted exchanges).getLast?.bind Response.rejection

def exchangedIn (s : Session) (x : Step) : List (Nat × Exchange) :=
  (s.putIn x).map (fun p => (p.1, .request p.2)) ++ (s.handledIn x).map (fun p => (p.1, .frame p.2))

def exchangesOf (link : Nat) (exchanges : List (Nat × Exchange)) : List Exchange :=
  (exchanges.filter (fun p => p.1 == link)).map Prod.snd

/-- The exchanges on a link in a run, the earliest first. -/
def exchangesOn (past : Past) (link : Nat) : List Exchange :=
  exchangesOf link (logged exchangedIn past)

/-- A frame that is no response, or one with an identifier. -/
def Identified (text : String) : Prop := ∀ a, responseOf text = some a → a.id ≠ none

instance (text : String) : Decidable (Identified text) :=
  decidable_of_iff ((responseOf text).all (fun a => a.id.isSome) = true) (by
    simp [Identified, Option.all_eq_true, Option.isSome_iff_ne_none])

def published (past : Past) (s : Session) : List Event := publishedEvents (noted past s)

def rejectionsTold (past : Past) (s : Session) : List Event := rejectionEvents (noted past s)

/-- The links of the connections that were opened, in their order. -/
def openedLinks (past : Past) : List Nat := (logged openedIn past).map Prod.fst

theorem exchangesOf_append (link : Nat) (xs ys : List (Nat × Exchange)) :
    exchangesOf link (xs ++ ys) = exchangesOf link xs ++ exchangesOf link ys := by
  simp [exchangesOf]

theorem exchangesOf_exchangedIn (link : Nat) (s : Session) (x : Step) :
    exchangesOf link (s.exchangedIn x) = (ofLink link (s.putIn x)).map .request ++
      (((s.handledIn x).filter (fun p => p.1 == link)).map Prod.snd).map .frame := by
  simp [exchangedIn, exchangesOf, ofLink, List.filter_map, Function.comp_def]

theorem exchangesOn_append (past : Past) (s : Session) (x : Step) (link : Nat) :
    exchangesOn (past ++ [(s, x)]) link =
      exchangesOn past link ++ exchangesOf link (s.exchangedIn x) := by
  rw [exchangesOn, logged_append, exchangesOf_append]
  rfl

theorem exchangesOn_quiet (past : Past) (link : Nat) (h : s.handledIn x = []) :
    exchangesOn (past ++ [(s, x)]) link =
      exchangesOn past link ++ (ofLink link (s.putIn x)).map .request := by
  rw [exchangesOn_append, exchangesOf_exchangedIn, h]
  simp

theorem exchangesOn_heard {k : Nat} {text : String} (past : Past) (link : Nat)
    (hput : s.putIn x = []) (h : s.handledIn x = [(k, text)]) :
    exchangesOn (past ++ [(s, x)]) link =
      exchangesOn past link ++ if k = link then [.frame text] else [] := by
  rw [exchangesOn_append, exchangesOf_exchangedIn, hput, h]
  by_cases hk : k = link <;> simp [ofLink, hk]

theorem openedLinks_append (past : Past) (s : Session) (x : Step) :
    openedLinks (past ++ [(s, x)]) = openedLinks past ++ (s.openedIn x).map Prod.fst := by
  rw [openedLinks, logged_append, List.map_append]
  rfl

/-- What was told of before a step and what is noted in it, carried off or not. -/
theorem rejectionsTold_append (past : Past) (s : Session) (x : Step) (t : Session) :
    rejectionsTold (past ++ [(s, x)]) t =
      rejectionEvents (logged carriedIn past) ++
        (rejectionEvents (s.carriedIn x) ++ t.ruling.told) := by
  rw [rejectionsTold, noted, logged_append, rejectionEvents_append, rejectionEvents_append,
    List.append_assoc]
  rfl

theorem rejectionsTold_eq (past : Past) (s : Session) :
    rejectionsTold past s = rejectionEvents (logged carriedIn past) ++ s.ruling.told :=
  rejectionEvents_append _ _

theorem told_kept (h : rejectionEvents (s.carriedIn x) ++ t.ruling.told = s.ruling.told) :
    rejectionsTold (past ++ [(s, x)]) t = rejectionsTold past s := by
  rw [rejectionsTold_append, h, rejectionsTold_eq]

/-- A response that counts is told of if it is a rejection. -/
theorem told_heard {answer : Option Response} (kept : s.carriedIn x = [])
    (heard : t.ruling = s.ruling.afterAnswer s.edge answer) :
    rejectionsTold (past ++ [(s, x)]) t =
      rejectionsTold past s ++ answer.toList.filterMap (Response.event? s.edge) := by
  rw [rejectionsTold_append, kept, heard, rejectionsTold_eq, List.append_assoc]
  congr 1
  cases answer with
  | none => exact (List.append_nil _).symm
  | some a =>
    have hevents : (some a).toList.filterMap (Response.event? s.edge) =
        (a.event? s.edge).toList := by
      cases he : a.event? s.edge <;> simp [he]
    rw [hevents]
    rfl

/-- The requests among the exchanges on a link are those that were put on it. -/
theorem requests_exchangesOn (past : Past) (link : Nat) :
    (exchangesOn past link).filterMap Exchange.request? = putOn past link := by
  have hrequests : Exchange.request? ∘ .request = some := rfl
  have hframes : Exchange.request? ∘ .frame = fun _ => none := rfl
  induction past with
  | nil => rfl
  | cons entry rest ih =>
    unfold exchangesOn putOn logged at ih ⊢
    rw [List.flatMap_cons, List.flatMap_cons, exchangesOf_append, ofLink_append,
      List.filterMap_append, ih, exchangesOf_exchangedIn, List.filterMap_append, List.filterMap_map,
      List.filterMap_map, hrequests, hframes]
    simp

theorem latest_exchangesOn (past : Past) (link : Nat) :
    latest (exchangesOn past link) = (putOn past link).getLast? := by
  rw [latest, requests_exchangesOn]

theorem countedAfter_append (earlier exchanges more : List Exchange) :
    countedAfter earlier (exchanges ++ more) =
      countedAfter earlier exchanges ++ countedAfter (earlier ++ exchanges) more := by
  induction exchanges generalizing earlier with
  | nil => simp [countedAfter]
  | cons e rest ih =>
    rw [List.cons_append, countedAfter, countedAfter, ih]
    simp

theorem counted_requests (exchanges : List Exchange) (requests : List Request) :
    counted (exchanges ++ requests.map .request) = counted exchanges := by
  have hnone : ∀ earlier, countedAfter earlier (requests.map Exchange.request) = [] := by
    induction requests with
    | nil => exact fun _ => rfl
    | cons r rest ih =>
      intro earlier
      rw [List.map_cons, countedAfter, ih]
      rfl
  rw [counted, countedAfter_append, hnone, List.append_nil]
  rfl

theorem counted_frame (exchanges : List Exchange) (text : String) :
    counted (exchanges ++ [.frame text]) =
      counted exchanges ++ ((Exchange.frame text).answer? exchanges).toList := by
  rw [counted, countedAfter_append, List.nil_append, countedAfter, countedAfter, List.append_nil]
  rfl

theorem verdict_requests (exchanges : List Exchange) (requests : List Request) :
    verdict (exchanges ++ requests.map .request) = verdict exchanges := by
  rw [verdict, counted_requests]
  rfl

theorem verdict_frame (exchanges : List Exchange) (text : String) :
    verdict (exchanges ++ [.frame text]) =
      match (Exchange.frame text).answer? exchanges with
      | some a => a.rejection
      | none => verdict exchanges := by
  rw [verdict, counted_frame]
  cases (Exchange.frame text).answer? exchanges with
  | none => simp [verdict]
  | some a => simp

theorem putIn_requesting {link : Nat} {r : Request} (h : (link, r) ∈ s.putIn x) :
    ∃ d, s.phase = .requesting d r ∧ d.link = link := by
  unfold putIn at h
  split at h
  · split at h
    · rename_i d q hp
      split at h
      · split at h
        · cases List.mem_singleton.mp h
          exact ⟨d, hp, rfl⟩
        · cases h
      · cases h
    · cases h
  · cases h

/-- Requests are put and frames handled on the connection in use. -/
theorem exchangedIn_current {link : Nat} (h : exchangesOf link (s.exchangedIn x) ≠ []) :
    ∃ d, s.phase.drive? = some d ∧ d.link = link := by
  obtain ⟨e, he⟩ := List.exists_mem_of_ne_nil _ h
  obtain ⟨⟨k, e'⟩, hfiltered, rfl⟩ := List.mem_map.mp he
  obtain ⟨hm, hk⟩ := List.mem_filter.mp hfiltered
  obtain rfl : k = link := beq_iff_eq.mp hk
  rcases List.mem_append.mp hm with hm | hm
  · obtain ⟨⟨k', r⟩, hput, hp⟩ := List.mem_map.mp hm
    cases hp
    obtain ⟨d, hphase, hlink⟩ := putIn_requesting hput
    exact ⟨d, by rw [hphase]; rfl, hlink⟩
  · obtain ⟨⟨k', text⟩, hheard, hp⟩ := List.mem_map.mp hm
    cases hp
    obtain ⟨d, hphase, hlink⟩ := handledIn_driving hheard
    exact ⟨d, by rw [hphase]; rfl, hlink⟩

/-- A response answers the last request on its connection if it has the identifier that the session
remembers. -/
theorem Reached.answer_iff {d : Drive} {text : String} {a : Response} (h : Reached past s)
    (hd : s.phase.drive? = some d) (ha : responseOf text = some a) (hid : a.id ≠ none) :
    (Exchange.frame text).answer? (exchangesOn past d.link) =
      if a.id = d.pending.map RequestId.text then some a else none := by
  have hpending := (h.requests_follow.remembered d hd).2
  rw [Exchange.answer?, ha, latest_exchangesOn, hpending]
  cases (putOn past d.link).getLast? with
  | none => simp [hid]
  | some r => simp [Option.filter_some, beq_iff_eq]

/-- A frame whose response has an identifier is heard if it counts, and is passed over otherwise. -/
theorem Reached.hears {d : Drive} {text : String} (h : Reached past s) (was : s.phase = .driving d)
    (hid : Identified text) (judged : Judges s d text t) : t.ruling =
      s.ruling.afterAnswer s.edge ((Exchange.frame text).answer? (exchangesOn past d.link)) := by
  cases ha : responseOf text with
  | none =>
    rw [Exchange.answer?, ha]
    exact judged.other ha
  | some a =>
    rw [h.answer_iff (by rw [was]; rfl) ha (hid a ha)]
    rcases judged.response a ha with ⟨he, hr⟩ | ⟨he, hr, _⟩
    · rw [if_pos he]
      exact hr
    · rw [if_neg he]
      exact hr

/-- With distinct identifiers that of an earlier request, or of none, is not that of the last. -/
theorem last_unnamed {requests : List Request} {name : String}
    (distinct : (requests.map (fun r => r.id.text)).Nodup)
    (superseded : (∃ r ∈ requests.dropLast, r.id.text = name) ∨ ∀ r ∈ requests, r.id.text ≠ name) :
    some name ≠ requests.getLast?.map (fun r => r.id.text) := by
  rcases List.eq_nil_or_concat requests with rfl | ⟨before, last, rfl⟩
  · exact fun he => nomatch he
  · rw [List.concat_eq_append] at distinct superseded ⊢
    simp only [List.map_append, List.nodup_append, List.dropLast_concat, List.getLast?_concat]
      at distinct superseded ⊢
    rcases superseded with ⟨r, hr, rfl⟩ | hnone
    · intro he
      exact distinct.2.2 _ (List.mem_map_of_mem hr) _ (by simp) (Option.some.inj he)
    · exact fun he => hnone last (by simp) (Option.some.inj he).symm

/-- A response whose identifier is not that of the last request is passed over. -/
theorem Reached.passes_over {d : Drive} {text name : String} {a : Response} (h : Reached past s)
    (was : s.phase = .driving d) (kept : s.carriedIn x = []) (judged : Judges s d text t)
    (ha : responseOf text = some a) (hname : a.id = some name)
    (hother : some name ≠ (putOn past d.link).getLast?.map (fun r => r.id.text)) :
    t.rejection = s.rejection ∧ published (past ++ [(s, x)]) t = published past s := by
  have hpending := (h.requests_follow.remembered d (by rw [was]; rfl)).2
  rcases judged.response a ha with ⟨he, _⟩ | ⟨_, hruling, hpublished⟩
  · rw [hname, hpending, Option.map_map] at he
    exact absurd he hother
  · refine ⟨congrArg Ruling.rejection hruling, ?_⟩
    rw [published, noted, logged_append, kept, List.append_nil, publishedEvents_append, hpublished,
      ← publishedEvents_append]
    rfl

/-- Only on connections that were opened is anything exchanged. -/
theorem Reached.exchanged_opened {link : Nat} (h : Reached past s)
    (hne : exchangesOn past link ≠ []) : link ∈ openedLinks past := by
  induction h with
  | start promised started => exact absurd rfl hne
  | @step past u t x earlier possible ih =>
    rw [openedLinks_append, List.mem_append]
    by_cases hbefore : exchangesOn past link = []
    · rw [exchangesOn_append, hbefore, List.nil_append] at hne
      obtain ⟨d, hd, rfl⟩ := exchangedIn_current hne
      exact .inl (List.mem_of_getLast? (earlier.connected.current d hd))
    · exact .inl (ih hbefore)

/-- On a connection that is opened nothing was exchanged yet. -/
theorem Reached.fresh_link {link : Nat} {wanted : AddressSet} (h : Reached past s)
    (hx : s.step? x = some t) (opened : s.openedIn x = [(link, wanted)]) (put : s.putIn x = [])
    (handled : s.handledIn x = []) : exchangesOn (past ++ [(s, x)]) link = [] := by
  have honce := (h.step hx).connected.once
  rw [logged_append, opened, List.map_append, List.nodup_append] at honce
  have hnew : link ∉ openedLinks past := fun hm => honce.2.2 _ hm _ (List.mem_singleton_self _) rfl
  have hbefore : exchangesOn past link = [] :=
    Classical.not_not.mp (fun hne => hnew (h.exchanged_opened hne))
  rw [exchangesOn_quiet past link handled, put, hbefore]
  rfl

/-- All responses among the frames on a connection have an identifier. -/
def Orderly (past : Past) (link : Nat) : Prop :=
  ∀ text, .frame text ∈ exchangesOn past link → Identified text

theorem Orderly.earlier {link : Nat} (h : Orderly (past ++ [(s, x)]) link) : Orderly past link := by
  intro text hm
  refine h text ?_
  rw [exchangesOn_append]
  exact List.mem_append_left _ hm

/-- The rejections that count in a run, connection by connection. -/
def rejectionsDue (past : Past) (edge : String) : List Event :=
  (openedLinks past).flatMap (fun link =>
    (counted (exchangesOn past link)).filterMap (Response.event? edge))

/-- What stands, and what was told of, go by the responses that count. -/
structure Heeds (past : Past) (s : Session) : Prop where
  unopened : openedLinks past = [] → s.rejection = none
  stands : ∀ link, (openedLinks past).getLast? = some link → Orderly past link →
    s.rejection = verdict (exchangesOn past link)
  told : (∀ link, Orderly past link) → rejectionsTold past s = rejectionsDue past s.edge

theorem Heeds.keeps (h : Heeds past s) (edge : t.edge = s.edge) (opened : s.openedIn x = [])
    (handled : s.handledIn x = []) (stands : t.rejection = s.rejection)
    (told : rejectionEvents (s.carriedIn x) ++ t.ruling.told = s.ruling.told) :
    Heeds (past ++ [(s, x)]) t := by
  have hlinks : openedLinks (past ++ [(s, x)]) = openedLinks past := by
    rw [openedLinks_append, opened]
    exact List.append_nil _
  refine ⟨fun hnone => ?_, fun link hlast horderly => ?_, fun horderly => ?_⟩
  · rw [stands]
    exact h.unopened (hlinks ▸ hnone)
  · rw [stands, exchangesOn_quiet past link handled, verdict_requests]
    exact h.stands link (hlinks ▸ hlast) horderly.earlier
  · rw [told_kept told, h.told (fun link => (horderly link).earlier), rejectionsDue, rejectionsDue,
      hlinks, edge]
    simp only [exchangesOn_quiet past _ handled, counted_requests]

theorem Heeds.opens {link : Nat} {wanted : AddressSet} (h : Heeds past s)
    (edge : t.edge = s.edge) (opened : s.openedIn x = [(link, wanted)]) (put : s.putIn x = [])
    (handled : s.handledIn x = []) (kept : s.carriedIn x = [])
    (ruling : t.ruling = ⟨none, s.ruling.told⟩)
    (fresh : exchangesOn (past ++ [(s, x)]) link = []) : Heeds (past ++ [(s, x)]) t := by
  have hlinks : openedLinks (past ++ [(s, x)]) = openedLinks past ++ [link] := by
    rw [openedLinks_append, opened]
    rfl
  have hrejection : t.rejection = none := congrArg Ruling.rejection ruling
  have hexchanges : ∀ k, exchangesOn (past ++ [(s, x)]) k = exchangesOn past k := by
    intro k
    rw [exchangesOn_quiet past k handled, put]
    exact List.append_nil _
  have hdue : rejectionsDue past s.edge = rejectionsDue (past ++ [(s, x)]) t.edge := by
    rw [hexchanges] at fresh
    simp [rejectionsDue, hlinks, hexchanges, fresh, edge, counted, countedAfter]
  refine ⟨fun _ => hrejection, fun k hlast _ => ?_, fun horderly => ?_⟩
  · rw [hlinks, List.getLast?_concat] at hlast
    cases hlast
    rw [hrejection, fresh]
    rfl
  · rw [← hdue, ← h.told (fun k => (horderly k).earlier)]
    exact told_kept (by rw [kept, ruling]; rfl)

/-- What grows at the last of some things grows at the end. -/
theorem flatMap_last {α β : Type} {f g : α → List β} {more : List β} (before : List α) (last : α)
    (same : ∀ k ∈ before, g k = f k) (grown : g last = f last ++ more) :
    (before ++ [last]).flatMap g = (before ++ [last]).flatMap f ++ more := by
  have hbefore : before.flatMap g = before.flatMap f := by
    rw [List.flatMap_def, List.map_congr_left same, ← List.flatMap_def]
  simp [hbefore, grown]

/-- A frame that is handled counts on the last connection. -/
theorem Reached.due_heard {d : Drive} {text : String} (h : Reached past s)
    (was : s.phase = .driving d) (handled : s.handledIn x = [(d.link, text)])
    (opened : s.openedIn x = []) (put : s.putIn x = []) (edge : String) :
    rejectionsDue (past ++ [(s, x)]) edge = rejectionsDue past edge ++
      ((Exchange.frame text).answer? (exchangesOn past d.link)).toList.filterMap
        (Response.event? edge) := by
  have hconnected := h.connected
  obtain ⟨before, hlinks⟩ := List.getLast?_eq_some_iff.mp
    (hconnected.current d (by rw [was]; rfl))
  have hlinks : openedLinks past = before ++ [d.link] := hlinks
  have hold : d.link ∉ before := by
    have honce : (openedLinks past).Nodup := hconnected.once
    rw [hlinks] at honce
    exact fun hm => (List.nodup_append.mp honce).2.2 _ hm _ (List.mem_singleton_self _) rfl
  rw [rejectionsDue, rejectionsDue, openedLinks_append, opened, List.map_nil, List.append_nil,
    hlinks]
  -- on the connections before it nothing is exchanged any more
  refine flatMap_last before d.link (fun k hk => ?_) ?_
  · have hother : d.link ≠ k := fun he => hold (he ▸ hk)
    rw [exchangesOn_heard past k put handled, if_neg hother, List.append_nil]
  · rw [exchangesOn_heard past d.link put handled, if_pos rfl, counted_frame,
      List.filterMap_append]

theorem Heeds.hears {d : Drive} {text : String} (h : Heeds past s) (hr : Reached past s)
    (edge : t.edge = s.edge) (was : s.phase = .driving d)
    (handled : s.handledIn x = [(d.link, text)]) (opened : s.openedIn x = []) (put : s.putIn x = [])
    (kept : s.carriedIn x = [])
    (heard : Identified text → t.ruling =
      s.ruling.afterAnswer s.edge ((Exchange.frame text).answer? (exchangesOn past d.link))) :
    Heeds (past ++ [(s, x)]) t := by
  have hlinks : openedLinks (past ++ [(s, x)]) = openedLinks past := by
    rw [openedLinks_append, opened]
    exact List.append_nil _
  have hlast : (openedLinks past).getLast? = some d.link :=
    hr.connected.current d (by rw [was]; rfl)
  have hframe : exchangesOn (past ++ [(s, x)]) d.link =
      exchangesOn past d.link ++ [.frame text] := by
    rw [exchangesOn_heard past d.link put handled, if_pos rfl]
  have hruling := fun horderly : Orderly (past ++ [(s, x)]) d.link =>
    heard (horderly text (by rw [hframe]; simp))
  refine ⟨fun hnone => ?_, fun k hk horderly => ?_, fun horderly => ?_⟩
  · rw [hlinks] at hnone
    simp [hnone] at hlast
  · rw [hlinks, hlast] at hk
    cases hk
    rw [hframe, verdict_frame, ← h.stands d.link hlast horderly.earlier]
    have hrejection := congrArg Ruling.rejection (hruling horderly)
    cases ha : (Exchange.frame text).answer? (exchangesOn past d.link) with
    | none =>
      rw [ha] at hrejection
      exact hrejection
    | some a =>
      rw [ha] at hrejection
      exact hrejection
  · rw [edge, hr.due_heard was handled opened put, ← h.told (fun k => (horderly k).earlier),
      told_heard kept (hruling (horderly d.link))]

theorem Heeds.step (h : Heeds past s) (hr : Reached past s) (hx : s.step? x = some t) :
    Heeds (past ++ [(s, x)]) t := by
  have hedge := step_edge hx
  cases step_rules hx with
  | keeps opened handled stands told => exact h.keeps hedge opened handled stands told
  | @opens link wanted opened put handled kept ruling =>
    exact h.opens hedge opened put handled kept ruling (hr.fresh_link hx opened put handled)
  | hears was handled opened put kept judged =>
    exact h.hears hr hedge was handled opened put kept (fun hid => hr.hears was hid judged)

theorem Reached.heeds (h : Reached past s) : Heeds past s := by
  induction h with
  | start promised started =>
    obtain ⟨snapshots, _, rfl⟩ := ofConfig_eq started
    exact ⟨fun _ => rfl, fun _ hlast => (nomatch hlast), fun _ => rfl⟩
  | step earlier possible ih => exact ih.step earlier possible

/-- What the responses on the connections of a run come to. -/
structure RejectionFollows (past : Past) (s : Session) : Prop where
  /-- On the last connection that was opened, also once it is lost, the last response that counts
  decides. -/
  stands : ∀ link, (openedLinks past).getLast? = some link → Orderly past link →
    s.rejection = verdict (exchangesOn past link)
  unopened : openedLinks past = [] → s.rejection = none
  /-- The requests among the exchanges on a link are those that were put there. -/
  requests : ∀ link, (exchangesOn past link).filterMap Exchange.request? = putOn past link
  /-- One rejection was told of for each that counts. -/
  told : (∀ link, Orderly past link) → rejectionsTold past s = rejectionsDue past s.edge
  /-- It is told of when it is handled. -/
  tells : ∀ x t link text, s.step? x = some t → s.handledIn x = [(link, text)] → Identified text →
    rejectionsTold (past ++ [(s, x)]) t = rejectionsTold past s ++
      ((Exchange.frame text).answer? (exchangesOn past link)).toList.filterMap
        (Response.event? s.edge)
  silent : ∀ x t, s.step? x = some t → s.handledIn x = [] →
    rejectionsTold (past ++ [(s, x)]) t = rejectionsTold past s
  /-- A response to a request before the last, or to none, changes nothing. -/
  ignores : ∀ x t link text a name, s.step? x = some t → s.handledIn x = [(link, text)] →
    responseOf text = some a → a.id = some name →
    ((putOn past link).map (fun r => r.id.text)).Nodup →
    (∃ r ∈ (putOn past link).dropLast, r.id.text = name) ∨
      (∀ r ∈ putOn past link, r.id.text ≠ name) →
    t.rejection = s.rejection ∧ published (past ++ [(s, x)]) t = published past s
  asking : ∀ x t, s.step? x = some t → s.putIn x ≠ [] → t.rejection = s.rejection
  /-- A connection begins without a rejection, before anything is exchanged on it. -/
  opening : ∀ x t link wanted, s.step? x = some t → (link, wanted) ∈ s.openedIn x →
    t.rejection = none ∧ exchangesOn (past ++ [(s, x)]) link = []

theorem Reached.rejection_follows (h : Reached past s) : RejectionFollows past s := by
  have hheeds := h.heeds
  refine ⟨hheeds.stands, hheeds.unopened, requests_exchangesOn past, hheeds.told, ?_, ?_, ?_, ?_,
    ?_⟩
  · intro x t link text hx hheard hid
    obtain ⟨d, was, rfl, kept, judged⟩ := (step_rules hx).heard hheard
    exact told_heard kept (h.hears was hid judged)
  · intro x t hx hquiet
    cases step_rules hx with
    | keeps _ _ _ told => exact told_kept told
    | opens _ _ _ kept ruling => exact told_kept (by rw [kept, ruling]; rfl)
    | hears _ handled _ _ _ _ => simp [handled] at hquiet
  · intro x t link text a name hx hheard ha hname hdistinct hsuperseded
    obtain ⟨d, was, rfl, kept, judged⟩ := (step_rules hx).heard hheard
    exact h.passes_over was kept judged ha hname (last_unnamed hdistinct hsuperseded)
  · intro x t hx hput
    cases step_rules hx with
    | keeps _ _ stands _ => exact stands
    | opens _ put _ _ _ => exact absurd put hput
    | hears _ _ _ put _ _ => exact absurd put hput
  · intro x t link wanted hx hopened
    cases step_rules hx with
    | keeps opened _ _ _ => simp [opened] at hopened
    | opens opened put handled _ ruling =>
      have hfresh := h.fresh_link hx opened put handled
      rw [opened] at hopened
      cases List.mem_singleton.mp hopened
      exact ⟨congrArg Ruling.rejection ruling, hfresh⟩
    | hears _ _ opened _ _ _ => simp [opened] at hopened

theorem orderly_of_handled (h : ∀ p ∈ logged handledIn past, Identified p.2) (link : Nat) :
    Orderly past link := by
  intro text hm
  obtain ⟨⟨k, e⟩, hfiltered, he⟩ := List.mem_map.mp hm
  obtain ⟨entry, hentry, hp⟩ := List.mem_flatMap.mp (List.mem_filter.mp hfiltered).1
  rcases List.mem_append.mp hp with hp | hp
  · obtain ⟨q, _, hq⟩ := List.mem_map.mp hp
    cases hq
    cases he
  · obtain ⟨q, hheard, hq⟩ := List.mem_map.mp hp
    cases hq
    cases he
    exact h q (List.mem_flatMap.mpr ⟨entry, hentry, hheard⟩)

def refusal (id : RequestId) (code : Nat) : String :=
  "\x7b\"id\":\"" ++ id.text ++ "\",\"error\":\x7b\"code\":" ++ toString code ++
    ",\"message\":\"refused\"\x7d\x7d"

def acceptance (id : RequestId) : String := "\x7b\"id\":\"" ++ id.text ++ "\",\"result\":null\x7d"

/-- The request on the first connection and the first on the second are refused. What stands is not
ended by the answers that come late, to either of them, once another request was put. -/
theorem refusal_outlives_late_answers : ∃ past s, Reached past s ∧
    (putOn past 0).map Request.id = [⟨0, 1⟩] ∧ (putOn past 1).map Request.id = [⟨0, 2⟩, ⟨0, 3⟩] ∧
    (∀ link, Orderly past link) ∧ s.rejection = some ⟨8, "refused"⟩ ∧
    verdict (exchangesOn past 1) = some ⟨8, "refused"⟩ ∧
    rejectionsDue past s.edge =
      [.subscriptionRejected "edge0" 7 "refused", .subscriptionRejected "edge0" 8 "refused"] := by
  obtain ⟨past, s, hreached, _, htest⟩ := unbegun_reached.of_replay
    [.move .start, .set (.ofList [⟨"meter0", "power"⟩]), .device (.accept 4 false),
      .move .connect, .move .request, .device (.send 0 [refusal ⟨0, 1⟩ 7]), .move .frame,
      .device (.close 0), .move .frame, .device (.accept 4 false), .pass 1000, .move .wake,
      .move .connect, .move .request, .device (.send 1 [refusal ⟨0, 2⟩ 8]), .move .frame,
      .set .empty, .move .desire, .move .request,
      .device (.send 1 [acceptance ⟨0, 2⟩, refusal ⟨0, 1⟩ 9]), .move .frame, .move .frame]
    (fun past s => (putOn past 0).map Request.id == [⟨0, 1⟩] &&
      (putOn past 1).map Request.id == [⟨0, 2⟩, ⟨0, 3⟩] &&
      (logged handledIn past).all (fun p => decide (Identified p.2)) &&
      s.rejection == some ⟨8, "refused"⟩ && (openedLinks past).getLast? == some 1 &&
      rejectionsTold past s ==
        [.subscriptionRejected "edge0" 7 "refused", .subscriptionRejected "edge0" 8 "refused"])
    (by decide +kernel)
  simp only [Bool.and_eq_true, beq_iff_eq, List.all_eq_true, decide_eq_true_eq] at htest
  obtain ⟨⟨⟨⟨⟨hfirst, hsecond⟩, hidentified⟩, hrejection⟩, hlast⟩, htold⟩ := htest
  have horderly := orderly_of_handled hidentified
  have hfollow := hreached.rejection_follows
  exact ⟨past, s, hreached, hfirst, hsecond, horderly, hrejection,
    (hfollow.stands 1 hlast (horderly 1)).symm.trans hrejection,
    (hfollow.told horderly).symm.trans htold⟩

end ChannelFeed.Session
