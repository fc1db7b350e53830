import DocDirective.Service.Body
import DocDirective.Service.Form

/-!
# Service — Schema

The bodies of requests: a text whose directives are to be shown, or a described class.
-/

namespace DocDirective.Service

/-- A body with the text to show. -/
def textForm : Check String :=
  .record fun place fields => Check.required .text "text" place fields

/-- A member in a body. -/
def memberForm : Check MemberForm :=
  .record fun place fields =>
    (Checked.both (Check.required .text "kind" place fields) <|
      Checked.both (Check.required .text "name" place fields) <|
      Checked.both (Check.given .text "" "comment" place fields) <|
      Checked.both (Check.given (.optional .text) none "file" place fields)
        (Check.given (.optional .whole) none "line" place fields)).map
      fun (kind, name, comment, file, line) => { kind, name, comment, file, line }

/-- A body with the class to expand. -/
def classForm : Check ClassForm :=
  .record fun place fields =>
    (Checked.both (Check.required .text "class_name" place fields) <|
      Checked.both (Check.given .text "" "comment" place fields) <|
      Checked.both (Check.given (.optional .text) none "file" place fields) <|
      Checked.both (Check.given (.optional .whole) none "line" place fields) <|
      Checked.both (Check.given (.list .text) [] "ancestors" place fields)
        (Check.given (.list memberForm) [] "members" place fields)).map
      fun (className, comment, file, line, ancestors, members) =>
        { className, comment, file, line, ancestors, members }

end DocDirective.Service
