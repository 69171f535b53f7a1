import Golavo.Lib.Runs
import Golavo.Research.Extract

/-! # Candidates that can be imported

A candidate is built and checked by the same receipts, so it passes its own check exactly when the
values it proposes stand in its quote under the fold. What a model named is looked up there before it
becomes a candidate; an alias of a parsed item is looked up in the text as it is. -/

namespace Golavo.Research

open Golavo.Lib (check_bind_ok_iff bind_ok_iff failIf_ok_iff)
open Golavo.Ledger (isHexChar)

/-! ## Quotes -/

/-- A part that was found stands at its place. -/
theorem slice_find {part text : List Char} {i : Nat} (h : find part text = some i) :
    slice text i (i + part.length) = part := by
  unfold find at h
  have hfront : part.isPrefixOf (text.drop i) = true := by
    simpa only using List.find?_some h
  obtain ⟨rest, hrest⟩ := List.isPrefixOf_iff_prefix.mp hfront
  rw [slice, List.drop_take, Nat.add_sub_cancel_left, ← hrest, List.take_left]

/-- A quoted stretch is the span it is recorded with. -/
theorem slice_quoteSpan {text value quote : List Char} {start stop : Nat}
    (h : quoteSpan text value = some (quote, start, stop)) : slice text start stop = quote := by
  unfold quoteSpan at h
  split at h
  · cases h
  · dsimp only at h
    split_ifs at h
    all_goals
      simp only [Option.some.injEq, Prod.mk.injEq] at h
      obtain ⟨hquote, rfl, rfl⟩ := h
      exact hquote

/-! ## The check of a candidate just built -/

/-- A digest behind its tag is what the schema asks for. -/
@[simp] theorem isTaggedHex_digest (tag : String) (text : List Char) :
    isTaggedHex tag 64 (tag ++ Lib.Sha256.hexdigest text) = true := by
  have hhex : (Lib.Sha256.hexdigest text).toList.all isHexChar = true := by
    have hdigits : Lib.Sha256.hexDigits.all isHexChar = true := by decide
    rw [List.all_eq_true]
    intro c hc
    exact List.all_eq_true.mp hdigits c (Lib.Sha256.mem_hexdigest hc)
  have hlength := Lib.Sha256.length_hexdigest text
  simp only [isTaggedHex, String.toList_append, List.drop_left, ← hlength, List.take_length,
    List.drop_length, hhex]
  simp

section Built

variable {u : Unicode} {ctx : Context} {type : CorrectionType} {proposed : Lib.Json}
  {quote : List Char} {start stop : Nat} {locator : Option String} {extracted : ExtractedBy}
  {c : Candidate}

/-- A candidate is its record under its digest, and conforms. -/
theorem candidate_ok_iff :
    candidate ctx type proposed quote start stop locator extracted = .ok c ↔
      c = { candidateRecord ctx type proposed quote start stop locator extracted with
        candidateId := "cf_" ++ candidateDigest
          (candidateRecord ctx type proposed quote start stop locator extracted) } ∧
        c.conforms = true := by
  unfold candidate
  dsimp only
  split_ifs with h
  · constructor
    · intro heq
      obtain rfl := Except.ok.inj heq
      exact ⟨rfl, h⟩
    · rintro ⟨rfl, -⟩
      rfl
  · constructor
    · intro heq
      cases heq
    · rintro ⟨rfl, hconforms⟩
      exact absurd hconforms h

/-- A record that conforms conforms under its digest. -/
theorem candidate_of_conforms
    (h : (candidateRecord ctx type proposed quote start stop locator extracted).conforms = true) :
    ∃ c, candidate ctx type proposed quote start stop locator extracted = .ok c := by
  refine ⟨_, candidate_ok_iff.mpr ⟨rfl, ?_⟩⟩
  simp only [Candidate.conforms, Bool.and_eq_true, and_assoc] at h ⊢
  exact ⟨isTaggedHex_digest "cf_" _, h.2⟩

/-- Queueing a candidate keeps it conforming. -/
theorem conforms_markQueued (h : c.conforms = true) {proposalId : String}
    (hid : isTaggedHex "cp_" 32 proposalId = true) : (markQueued c proposalId).conforms = true := by
  unfold Candidate.conforms at h ⊢
  rw [Bool.and_eq_true] at h ⊢
  exact ⟨h.1, hid⟩

/-- The capture of a document carries the document's identity and text, and the policy's source. -/
structure OwnCapture (ctx : Context) : Prop where
  documentUrl : ctx.capture.documentUrl = ctx.document.documentUrl
  entityId : ctx.capture.entityId = getOrNull ctx.document.parsed "qid"
  text : ctx.capture.canonicalText = ctx.document.text
  sourceId : ctx.capture.sourceId = ctx.policy.sourceId
  licenseNamespace : ctx.capture.licenseNamespace = ctx.policy.licenseNamespace

theorem ownCapture_of_payload {response : FetchResponse} {runId now : String}
    (h : capturePayload runId response ctx.policy ctx.document now = some ctx.capture) :
    OwnCapture ctx := by
  unfold capturePayload at h
  dsimp only at h
  split_ifs at h
  rw [Option.some.injEq] at h
  constructor
  all_goals rw [← h]

/-- **A candidate just built passes its check** exactly when the values it proposes stand in its
quote. -/
theorem validate_candidate_iff (hown : OwnCapture ctx)
    (hc : candidate ctx type proposed quote start stop locator extracted = .ok c)
    (hquote : slice ctx.document.text.toList start stop = quote)
    (htype : type.name ∈ ctx.policy.permittedFactTypes) :
    validateStoredCandidate u c ctx.policy ctx.policy.licenseNamespace ctx.capture = .ok () ↔
      standIn u (proposedValues type proposed) (String.ofList quote) = true := by
  obtain ⟨rfl, hconforms⟩ := candidate_ok_iff.mp hc
  have hdigest : ∀ id, candidateDigest { candidateRecord ctx type proposed quote start stop locator
      extracted with candidateId := id } =
        candidateDigest (candidateRecord ctx type proposed quote start stop locator extracted) :=
    fun _ => rfl
  unfold validateStoredCandidate
  simp only [check_bind_ok_iff, failIf_ok_iff, hconforms, hdigest]
  simp [candidateRecord, hown.documentUrl, hown.entityId, hown.text, hown.sourceId,
    hown.licenseNamespace, hquote, htype]

/-- A candidate that can be imported: it passes its check against its own capture and policy, and
does so when it is queued. -/
def Importable (u : Unicode) (ctx : Context) (c : Candidate) : Prop :=
  validateStoredCandidate u c ctx.policy ctx.policy.licenseNamespace ctx.capture = .ok () ∧
    ∀ proposalId, isTaggedHex "cp_" 32 proposalId = true →
      validateStoredCandidate u (markQueued c proposalId) ctx.policy ctx.policy.licenseNamespace
        ctx.capture = .ok ()

/-- Queueing changes nothing the check reads beyond the schema. -/
theorem validate_markQueued (policy : SourcePolicy) (licenseNamespace : String) (capture : Capture)
    (h : validateStoredCandidate u c policy licenseNamespace capture = .ok ()) {proposalId : String}
    (hid : isTaggedHex "cp_" 32 proposalId = true) :
    validateStoredCandidate u (markQueued c proposalId) policy licenseNamespace capture =
      .ok () := by
  unfold validateStoredCandidate at h ⊢
  simp only [check_bind_ok_iff, failIf_ok_iff] at h ⊢
  obtain ⟨hconforms, hrest⟩ := h
  have hqueued := conforms_markQueued (Bool.not_eq_false _ ▸ hconforms) hid
  exact ⟨by rw [hqueued]; decide, hrest⟩

theorem importable_iff_validate : Importable u ctx c ↔
    validateStoredCandidate u c ctx.policy ctx.policy.licenseNamespace ctx.capture = .ok () :=
  ⟨And.left, fun h => ⟨h, fun _ hid => validate_markQueued _ _ _ h hid⟩⟩

end Built

/-! ## What a model named -/

theorem get_aliasProposal (ctx : Context) (name team : Lib.Json) :
    (aliasProposal ctx name team).get "alias" = some name := by
  rw [aliasProposal, Lib.Json.get_mk]
  simp [Lib.Fields.getField]

/-- An alias's proposal stands for the alias. -/
@[simp] theorem proposedValues_aliasProposal (ctx : Context) (name team : Lib.Json) :
    proposedValues .teamAlias (aliasProposal ctx name team) = [name] := by
  rw [proposedValues, getOrNull, get_aliasProposal, Option.getD_some]

theorem isNonemptyObject_aliasProposal (ctx : Context) (name team : Lib.Json) :
    isNonemptyObject (aliasProposal ctx name team) = true := by
  have hget := get_aliasProposal ctx name team
  unfold aliasProposal Lib.Json.mk at hget ⊢
  revert hget
  generalize List.foldl _ _ _ = fields
  cases fields with
  | nil => intro hget; cases hget
  | cons _ _ => intro _; rfl

/-- What a model named was looked up in its quote, and its quote in the text. -/
theorem aiCandidate_some {u : Unicode} {ctx : Context} {item : Lib.Json}
    {model promptVersion : String} {c : Candidate}
    (h : aiCandidate u ctx item model promptVersion = .ok (some c)) :
    ∃ type proposed quote start locator extracted, type.name ∈ ctx.policy.permittedFactTypes ∧
      find quote ctx.document.text.toList = some start ∧
      standIn u (proposedValues type proposed) (String.ofList quote) = true ∧
      candidate ctx type proposed quote start (start + quote.length) locator extracted = .ok c := by
  unfold aiCandidate at h
  obtain ⟨type, -, h⟩ := bind_ok_iff.mp h
  cases type with
  | none => cases h
  | some type =>
      dsimp only at h
      by_cases htype : type.name ∈ ctx.policy.permittedFactTypes
      · rw [if_neg (not_not.mpr htype)] at h
        split at h
        · next fields quote _ _ =>
            by_cases hempty : quote = ""
            · rw [if_pos hempty] at h
              cases h
            rw [if_neg hempty] at h
            split at h
            · cases h
            · next start hfind =>
                obtain ⟨theirs, -, h⟩ := bind_ok_iff.mp h
                generalize (if type = .teamAlias then _ else _ : Lib.Json) = proposed at h
                split at h
                · cases h
                split at h
                · cases h
                · next hstand =>
                    obtain ⟨made, hmade, hdone⟩ := bind_ok_iff.mp h
                    obtain rfl := Option.some.inj (Except.ok.inj hdone)
                    refine ⟨type, proposed, quote.toList, start, _, _, htype, hfind, ?_, hmade⟩
                    rw [String.ofList_toList]
                    simpa using hstand
        · cases h
      · rw [if_pos htype] at h
        cases h

/-- **What a model named can be imported.** -/
theorem importable_aiCandidate {u : Unicode} {ctx : Context} (hown : OwnCapture ctx)
    {item : Lib.Json} {model promptVersion : String} {c : Candidate}
    (h : aiCandidate u ctx item model promptVersion = .ok (some c)) : Importable u ctx c := by
  obtain ⟨type, proposed, quote, start, locator, extracted, htype, hfind, hstand, hc⟩ :=
    aiCandidate_some h
  rw [importable_iff_validate, validate_candidate_iff hown hc (slice_find hfind) htype]
  exact hstand

/-! ## The aliases of a parsed item -/

/-- The names that become candidates: not the team's own under the fold, and in the text. -/
def proposable (u : Unicode) (document : CanonicalDocument) (team : String) (names : List String) :
    List String :=
  names.filter fun name => fold u name ≠ fold u team &&
    (quoteSpan document.text.toList name.toList).isSome

/-- Whether a name stands in its quote under the fold. -/
def StandsInQuote (u : Unicode) (document : CanonicalDocument) (name : String) : Prop :=
  ∀ span, quoteSpan document.text.toList name.toList = some span →
    occurs (fold u name) (fold u (String.ofList span.1)) = true

/-- Whether each of the first four names that become candidates stands in its quote under the
fold. -/
def AliasesStand (u : Unicode) (ctx : Context) : Prop :=
  ctx.policy.sourceId = "wikidata" → "team_alias" ∈ ctx.policy.permittedFactTypes →
    ∀ names team, namesOf ctx.document = some names → canonicalTeamOf u ctx.row names = some team →
      ∀ name ∈ (proposable u ctx.document team names).take 4, StandsInQuote u ctx.document name

instance (u : Unicode) (document : CanonicalDocument) (name : String) :
    Decidable (StandsInQuote u document name) :=
  decidable_of_iff ((quoteSpan document.text.toList name.toList).all
    fun span => occurs (fold u name) (fold u (String.ofList span.1))) (by
      rw [Option.all_eq_true]
      rfl)

/-- The names are those of the parsed item, and the team the one they stand for. -/
theorem aliasesStand_iff {u : Unicode} {ctx : Context} {names : List String} {team : String}
    (hsource : ctx.policy.sourceId = "wikidata")
    (htype : "team_alias" ∈ ctx.policy.permittedFactTypes)
    (hnames : namesOf ctx.document = some names)
    (hteam : canonicalTeamOf u ctx.row names = some team) :
    AliasesStand u ctx ↔ ∀ name ∈ (proposable u ctx.document team names).take 4,
      StandsInQuote u ctx.document name := by
  constructor
  · exact fun h => h hsource htype names team hnames hteam
  · intro h _ _ names' team' hnames' hteam'
    obtain rfl := Option.some.inj (hnames.symm.trans hnames')
    obtain rfl := Option.some.inj (hteam.symm.trans hteam')
    exact h

section Aliases

variable {u : Unicode} {ctx : Context} {team : String}

/-- A candidate made of a name. -/
def MadeFrom (ctx : Context) (team name : String) (c : Candidate) : Prop :=
  ∃ quote start stop locator extracted,
    quoteSpan ctx.document.text.toList name.toList = some (quote, start, stop) ∧
      candidate ctx .teamAlias (aliasProposal ctx (.str name) (.str team)) quote start stop locator
        extracted = .ok c

/-- The loop over the names makes a candidate of each that is proposable, in order. -/
theorem foldlM_aliasStep {names : List String} {result made : List Candidate}
    (h : names.foldlM (aliasStep u ctx team) result = .ok made) :
    ∃ new, made = result ++ new ∧
      List.Forall₂ (MadeFrom ctx team) (proposable u ctx.document team names) new := by
  induction names generalizing result with
  | nil =>
      obtain rfl := Except.ok.inj h
      exact ⟨[], by simp, .nil⟩
  | cons name names ih =>
      rw [List.foldlM_cons] at h
      obtain ⟨next, hnext, hrest⟩ := bind_ok_iff.mp h
      obtain ⟨new, rfl, hnew⟩ := ih hrest
      unfold aliasStep at hnext
      split_ifs at hnext with hown
      · obtain rfl := Except.ok.inj hnext
        refine ⟨new, rfl, ?_⟩
        rwa [proposable, List.filter_cons_of_neg (by simp [hown])]
      · split at hnext
        · next hspan =>
            obtain rfl := Except.ok.inj hnext
            refine ⟨new, rfl, ?_⟩
            rwa [proposable, List.filter_cons_of_neg (by simp [hspan])]
        · next quote start stop hspan =>
            obtain ⟨c, hc, hdone⟩ := bind_ok_iff.mp hnext
            obtain rfl := Except.ok.inj hdone
            refine ⟨c :: new, by simp, ?_⟩
            rw [proposable, List.filter_cons_of_pos (by simp [hown, hspan])]
            exact .cons ⟨quote, start, stop, _, _, hspan, hc⟩ hnew

/-- A candidate made of a name can be imported exactly when the name stands in its quote. -/
theorem importable_madeFrom (hown : OwnCapture ctx)
    (htype : "team_alias" ∈ ctx.policy.permittedFactTypes) {name : String} {c : Candidate}
    (h : MadeFrom ctx team name c) :
    Importable u ctx c ↔ StandsInQuote u ctx.document name := by
  obtain ⟨quote, start, stop, locator, extracted, hspan, hc⟩ := h
  rw [importable_iff_validate, validate_candidate_iff hown hc (slice_quoteSpan hspan) htype]
  rw [proposedValues_aliasProposal, StandsInQuote, hspan]
  simp [standIn]

end Aliases

/-! ## Every candidate -/

section Every

variable {u : Unicode} {ctx : Context} {cs : List Candidate}

/-- The candidates made of a parsed item are of its first four proposable names, in order. -/
theorem deterministicCandidates_madeFrom {names : List String} {team : String}
    (hsource : ctx.policy.sourceId = "wikidata")
    (htype : "team_alias" ∈ ctx.policy.permittedFactTypes)
    (hnames : namesOf ctx.document = some names)
    (hteam : canonicalTeamOf u ctx.row names = some team)
    (h : deterministicCandidates u ctx = .ok cs) :
    List.Forall₂ (MadeFrom ctx team) ((proposable u ctx.document team names).take 4) cs := by
  have hguard : ¬ (ctx.policy.sourceId ≠ "wikidata" ∨
      "team_alias" ∉ ctx.policy.permittedFactTypes) := by
    rintro (hne | hnot)
    · exact hne hsource
    · exact hnot htype
  simp only [deterministicCandidates, if_neg hguard, hnames, hteam] at h
  obtain ⟨result, hresult, hdone⟩ := bind_ok_iff.mp h
  obtain rfl := Except.ok.inj hdone
  obtain ⟨new, rfl, hnew⟩ := foldlM_aliasStep hresult
  exact List.forall₂_take 4 hnew

/-- **The candidates of a parsed item can all be imported** exactly when the names they are made of
stand in their quotes. -/
theorem importable_deterministicCandidates (hown : OwnCapture ctx)
    (h : deterministicCandidates u ctx = .ok cs) :
    (∀ c ∈ cs, Importable u ctx c) ↔ AliasesStand u ctx := by
  constructor
  · intro hall hsource htype names team hnames hteam name hname
    obtain ⟨c, hc, hmade⟩ := Lib.exists_of_mem_items
      (deterministicCandidates_madeFrom hsource htype hnames hteam h) hname
    exact (importable_madeFrom hown htype hmade).mp (hall c hc)
  · intro hstand c hc
    by_cases hguard : ctx.policy.sourceId ≠ "wikidata" ∨
        "team_alias" ∉ ctx.policy.permittedFactTypes
    · rw [deterministicCandidates, if_pos hguard] at h
      obtain rfl := Except.ok.inj h
      cases hc
    rw [not_or, not_not, not_not] at hguard
    obtain ⟨hsource, htype⟩ := hguard
    cases hnames : namesOf ctx.document with
    | none =>
        simp [deterministicCandidates, hsource, htype, hnames] at h
        subst h
        cases hc
    | some names =>
        cases hteam : canonicalTeamOf u ctx.row names with
        | none =>
            simp [deterministicCandidates, hsource, htype, hnames, hteam] at h
            subst h
            cases hc
        | some team =>
            obtain ⟨name, hname, hmade⟩ := Lib.exists_of_mem_results
              (deterministicCandidates_madeFrom hsource htype hnames hteam h) hc
            exact (importable_madeFrom hown htype hmade).mpr
              (hstand hsource htype names team hnames hteam name hname)

/-- **Every candidate can be imported** exactly when the names of the parsed item that become
candidates stand in the lines they are quoted by. -/
theorem candidates_importable_iff {response : FetchResponse} {runId now : String}
    (hcapture : capturePayload runId response ctx.policy ctx.document now = some ctx.capture)
    (hrun : deterministicCandidates u ctx = .ok cs) :
    ((∀ c ∈ cs, Importable u ctx c) ∧
      ∀ item model promptVersion c, aiCandidate u ctx item model promptVersion = .ok (some c) →
        Importable u ctx c) ↔ AliasesStand u ctx := by
  have hown := ownCapture_of_payload hcapture
  rw [importable_deterministicCandidates hown hrun, and_iff_left_iff_imp]
  intro _ item model promptVersion c hc
  exact importable_aiCandidate hown hc

end Every

/-! ## A line of aliases -/

/-- The policy of Wikidata. -/
def wikidata : SourcePolicy where
  sourceId := "wikidata"
  license := "CC0-1.0"
  licenseUrl := "https://www.wikidata.org/wiki/Wikidata:Licensing"
  attribution := "Structured data from Wikidata (CC0); we credit it voluntarily as " ++
    "'Data from Wikidata'."
  licenseNamespace := "enrichment-cc0"
  permittedFactTypes := ["team_alias", "venue"]
  parserId := "wikidata-item-v1"
  parserVersion := "1"

/-- The document of an entity under a label and one alias. -/
def entityDocument (label aliased : String) : CanonicalDocument where
  text := "Entity: Q1\nLabel: " ++ label ++ "\nAliases: " ++ aliased
  revisionId := some "1"
  documentUrl := "https://www.wikidata.org/wiki/Q1"
  parsed := .mk [("qid", .str "Q1"), ("label", .str label), ("aliases", .arr [.str aliased])]

/-- What the fetcher returned for an entity. -/
def entityResponse : FetchResponse where
  canonicalUrl := "https://www.wikidata.org/wiki/Special:EntityData/Q1.json"
  bodySha256 := String.ofList (List.replicate 64 'a')

/-- Research on a match of Wigan Athletic, with the document of an entity captured. -/
def entityContext (aliased : String) : Context :=
  let document := entityDocument "Wigan Athletic" aliased
  let runId := "rr_" ++ String.ofList (List.replicate 32 '0')
  { runId := runId
    row :=
      { matchId := "m1"
        homeTeam := some "Wigan Athletic"
        awayTeam := some "Bury"
        competition := some "League One"
        country := some "England"
        upstreamFixtureKey := none }
    indexFingerprint := String.ofList (List.replicate 64 'b')
    capture :=
      { captureId := captureIdFor runId wikidata.sourceId entityResponse.canonicalUrl
          document.documentUrl (.str "Q1") entityResponse.bodySha256
        runId := runId
        sourceId := wikidata.sourceId
        licenseNamespace := wikidata.licenseNamespace
        documentUrl := document.documentUrl
        entityId := .str "Q1"
        retrievedAtUtc := "2026-01-01T00:00:00Z"
        revisionId := document.revisionId
        rawSha256 := entityResponse.bodySha256
        canonicalTextSha256 := Lib.Sha256.hexdigest document.text.toList
        canonicalText := document.text }
    policy := wikidata
    document := document
    now := "2026-01-01T00:00:00Z" }

theorem entityContext_qid (aliased : String) :
    getOrNull (entityContext aliased).document.parsed "qid" = .str "Q1" := by
  show getOrNull (.mk _) "qid" = .str "Q1"
  rw [getOrNull, Lib.Json.get_mk]
  simp [Lib.Fields.getField]

theorem entityContext_captured (aliased : String) :
    capturePayload (entityContext aliased).runId entityResponse (entityContext aliased).policy
      (entityContext aliased).document (entityContext aliased).now =
        some (entityContext aliased).capture := by
  unfold capturePayload
  dsimp only
  rw [entityContext_qid, if_pos (by rfl)]
  rfl

/-- What is made of the entity's alias conforms, whatever its digests are. -/
theorem entityContext_conforms (aliased : String) (name team : Lib.Json) {quote : List Char}
    (start stop : Nat) (hquote : 1 ≤ quote.length ∧ quote.length ≤ 4000) (hstop : 1 ≤ stop) :
    (candidateRecord (entityContext aliased) .teamAlias
      (aliasProposal (entityContext aliased) name team) quote start stop (some "/aliases/en/0")
      ⟨"deterministic", "wikidata-item-v1", "1", none, none⟩).conforms = true := by
  have hcapture : isTaggedHex "rc_" 64 (entityContext aliased).capture.captureId = true :=
    isTaggedHex_digest _ _
  have htext : isTaggedHex "" 64 (entityContext aliased).capture.canonicalTextSha256 = true :=
    isTaggedHex_digest _ _
  have houtput : isTaggedHex "" 64
      (digestOf (aliasProposal (entityContext aliased) name team)) = true :=
    isTaggedHex_digest _ _
  simp only [Candidate.conforms, Bool.and_eq_true, decide_eq_true_eq, candidateRecord,
    entityContext_qid, isNonemptyObject_aliasProposal, hcapture, htext, houtput, hquote, hstop]
  simp only [entityContext, entityResponse, wikidata, if_true]
  decide +kernel

theorem entityContext_names (aliased : String) :
    namesOf (entityContext aliased).document = some ["Wigan Athletic", aliased] := by
  show namesOf { (entityDocument "Wigan Athletic" aliased) with parsed := .mk _ } = _
  simp [namesOf, Lib.Json.get_mk, Lib.Fields.getField, textsOf]

theorem entityContext_team (aliased : String) :
    canonicalTeamOf Unicode.ascii (entityContext aliased).row ["Wigan Athletic", aliased] =
      some "Wigan Athletic" := by
  simp [canonicalTeamOf, entityContext]

/-- The names an entity's document has must stand in their quotes. -/
theorem entityContext_aliasesStand_iff (aliased : String) :
    AliasesStand Unicode.ascii (entityContext aliased) ↔
      ∀ name ∈ (proposable Unicode.ascii (entityContext aliased).document "Wigan Athletic"
        ["Wigan Athletic", aliased]).take 4,
        StandsInQuote Unicode.ascii (entityContext aliased).document name :=
  aliasesStand_iff rfl (by simp [entityContext, wikidata]) (entityContext_names aliased)
    (entityContext_team aliased)

/-- What the document of an entity of Wigan Athletic gives when its alias is quoted. -/
theorem entityContext_candidates (aliased : String) (quote : List Char) (start stop : Nat)
    (hnames : fold Unicode.ascii "Wigan Athletic" ≠ fold Unicode.ascii aliased)
    (hspan : quoteSpan (entityContext aliased).document.text.toList aliased.toList =
      some (quote, start, stop))
    (hquote : 1 ≤ quote.length ∧ quote.length ≤ 4000) (hstop : 1 ≤ stop) :
    ∃ c, deterministicCandidates Unicode.ascii (entityContext aliased) = .ok [c] := by
  obtain ⟨c, hc⟩ := candidate_of_conforms
    (entityContext_conforms aliased (.str aliased) (.str "Wigan Athletic") start stop hquote hstop)
  refine ⟨c, ?_⟩
  have hguard : ¬ ((entityContext aliased).policy.sourceId ≠ "wikidata" ∨
      "team_alias" ∉ (entityContext aliased).policy.permittedFactTypes) := by
    simp [entityContext, wikidata]
  simp only [deterministicCandidates, if_neg hguard, entityContext_names, entityContext_team]
  have hstep : aliasStep Unicode.ascii (entityContext aliased) "Wigan Athletic" [] aliased =
      .ok [c] := by
    rw [aliasStep, if_neg hnames.symm, hspan]
    exact bind_ok_iff.mpr ⟨c, hc, rfl⟩
  rw [List.foldlM_cons, aliasStep, if_pos rfl]
  show (do let result ← [aliased].foldlM (aliasStep _ _ _) []; _) = _
  rw [List.foldlM_cons, hstep]
  rfl

/-- The quote of an alias on one line holds it. -/
theorem candidates_importable_latics :
    ∃ c, deterministicCandidates Unicode.ascii (entityContext "The Latics") = .ok [c] ∧
      Importable Unicode.ascii (entityContext "The Latics") c := by
  obtain ⟨c, hc⟩ := entityContext_candidates "The Latics" "Aliases: The Latics".toList 33 52
    (by decide +kernel) (by decide +kernel) (by decide +kernel) (by decide)
  have hstand : AliasesStand Unicode.ascii (entityContext "The Latics") :=
    (entityContext_aliasesStand_iff "The Latics").mpr (by decide +kernel)
  exact ⟨c, hc, ((candidates_importable_iff (entityContext_captured "The Latics") hc).mpr hstand).1
    c List.mem_cons_self⟩

/-- An alias with a line feed in it is quoted by its first line, and cannot be imported. -/
theorem candidates_line_feed :
    ∃ c, deterministicCandidates Unicode.ascii (entityContext "The Latics\nTics") = .ok [c] ∧
      ¬ Importable Unicode.ascii (entityContext "The Latics\nTics") c := by
  obtain ⟨c, hc⟩ := entityContext_candidates "The Latics\nTics" "Aliases: The Latics".toList 33
    52 (by decide +kernel) (by decide +kernel) (by decide +kernel) (by decide)
  refine ⟨c, hc, fun himportable => ?_⟩
  have hown := ownCapture_of_payload (entityContext_captured "The Latics\nTics")
  have hstand : AliasesStand Unicode.ascii (entityContext "The Latics\nTics") :=
    (importable_deterministicCandidates hown hc).mp (by simpa using himportable)
  exact absurd ((entityContext_aliasesStand_iff _).mp hstand) (by decide +kernel)

end Golavo.Research
