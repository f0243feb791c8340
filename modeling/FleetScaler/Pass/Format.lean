import FleetScaler.Json.Basic
import FleetScaler.Pass.Report

/-!
# Reports as JSON

A report becomes an object with its verdicts, its totals and its summary, for whoever watches the
passes of a fleet from outside. The summary is that of a pass that took no time.
-/

namespace FleetScaler

/-- The verdict as a JSON object. -/
def Verdict.toJson (v : Verdict) : Json :=
  .object [
    ("profile", .text v.profile),
    ("outcome", .text v.outcome.name),
    ("desired", .signed v.desired),
    ("observed", .signed v.observed),
    ("delta", .signed v.delta),
    ("blocking", .text v.blocking),
    ("error", .text v.error)]

/-- The report as a JSON object. -/
def Report.toJson (r : Report) : Json :=
  .object [
    ("profiles", .array (r.verdicts.map Verdict.toJson)),
    ("up", .unsigned (r.count .scaledUp)),
    ("down", .unsigned (r.count .scaledDown)),
    ("gated", .unsigned (r.count .gated)),
    ("failures", .unsigned (r.count .failed)),
    ("issued", .unsigned r.commands),
    ("summary", .text (r.summary 0))]

end FleetScaler
