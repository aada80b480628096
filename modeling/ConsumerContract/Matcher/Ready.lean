import ConsumerContract.Matcher.Basic

/-!
# Matchers for common texts

Numbers, addresses and times that contracts name again and again. All times are those of one moment,
half past noon on the first of February 2000, so that a contract is the same whenever it is made.
-/

namespace ConsumerContract.Matcher

/-- A hexadecimal number. -/
def hexValue : Matcher :=
  .regex "3F" "^[0-9a-fA-F]+$"

/-- A number that identifies something. -/
def identifier : Matcher :=
  .like (.literal (.int 42))

/-- An IPv4 address. -/
def ipv4Address : Matcher :=
  .regex "127.0.0.13" "^(\\d\x7b1,3\x7d\\.)+\\d\x7b1,3\x7d$"

/-- An IPv6 address. -/
def ipv6Address : Matcher :=
  .regex "::ffff:192.0.2.128"
    ("^(([0-9a-fA-F]\x7b1,4\x7d:)\x7b7\x7d[0-9a-fA-F]\x7b1,4\x7d" ++
      "|(([0-9a-fA-F]\x7b1,4\x7d:)\x7b0,7\x7d[0-9a-fA-F]\x7b0,4\x7d)?" ++
      "::(([0-9a-fA-F]\x7b1,4\x7d:)\x7b0,6\x7d[0-9a-fA-F]\x7b0,4\x7d)?" ++
      "((\\d\x7b1,3\x7d\\.)\x7b3\x7d\\d\x7b1,3\x7d)?)$")

/-- A point in time with its zone. -/
def timestamp : Matcher :=
  .regex "2000-02-01T12:30:00Z"
    ("^\\d\x7b4\x7d-\\d\x7b2\x7d-\\d\x7b2\x7dT\\d\x7b2\x7d:\\d\x7b2\x7d:\\d\x7b2\x7d" ++
      "(\\.\\d+)?(Z|[+-]\\d\x7b2\x7d:\\d\x7b2\x7d)$")

/-- A calendar date. -/
def date : Matcher :=
  .regex "2000-02-01" "^\\d\x7b4\x7d-(0[1-9]|1[0-2])-(0[1-9]|[12]\\d|3[01])$"

/-- A time of day after the letter that announces it. -/
def time : Matcher :=
  .regex "T12:30:00" "^T([01]\\d|2[0-3]):[0-5]\\d:[0-5]\\d$"

/-- A UUID in lower case. -/
def uuid : Matcher :=
  .regex "fc763eba-0905-41c5-a27f-3934ab26786c"
    "^[0-9a-f]\x7b8\x7d(-[0-9a-f]\x7b4\x7d)\x7b3\x7d-[0-9a-f]\x7b12\x7d$"

end ConsumerContract.Matcher
