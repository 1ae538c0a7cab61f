/-!
The query of the demonstration, as a document.
-/

namespace SqlSelect.Demo

def documentLines : List String := [
    "\x7b",
    "  \"aliases\": [",
    "    \x7b \"entity\": \"Student\", \"alias\": \"s\" \x7d,",
    "    \x7b \"entity\": \"ClassRoom\", \"alias\": \"c\" \x7d,",
    "    \x7b \"entity\": \"ClassTeacherInfo\", \"alias\": \"ct\" \x7d,",
    "    \x7b \"entity\": \"Teacher\", \"alias\": \"t\" \x7d",
    "  ],",
    "  \"select\": [",
    "    \"s.Id\",",
    "    \"s.FirstName\",",
    "    \"s.LastName\",",
    "    \"c.Grade\",",
    "    \"t.Name\",",
    "    null,",
    "    \x7b \"var\": \"school\", \"value\": \"Springfield High\" \x7d",
    "  ],",
    "  \"column_aliases\": [\"StudentId\", \"FirstName\", \"LastName\", \"Grade\", \"TeacherName\", \"Remarks\", \"School\"],",
    "  \"from\": \"Student\",",
    "  \"joins\": [",
    "    \x7b \"kind\": \"inner\", \"from\": \"Student\", \"to\": \"ClassRoom\", \"key\": \"ClassRoomId\" \x7d,",
    "    \x7b \"kind\": \"left\", \"on\": \"c.Id == ct.ClassRoomId\" \x7d,",
    "    \x7b \"kind\": \"left\", \"on\": \"ct.TeacherId == t.Id\" \x7d",
    "  ],",
    "  \"filter\": \x7b",
    "    \"and\": [",
    "      \x7b",
    "        \"and\": [",
    "          \x7b \"gt\": [\x7b \"col\": \"s.Id\" \x7d, 0] \x7d,",
    "          \x7b \"eq\": [\x7b \"col\": \"s.FirstName\" \x7d, \x7b \"var\": \"firstName\", \"value\": \"Steve\" \x7d] \x7d",
    "        ]",
    "      \x7d,",
    "      \x7b",
    "        \"or\": [",
    "          \x7b \"lt\": [\x7b \"col\": \"s.DateOfBirth\" \x7d, \x7b \"ymd\": [2000, 1, 1] \x7d] \x7d,",
    "          \x7b \"eq\": [\x7b \"col\": \"s.LastName\" \x7d, \x7b \"var\": \"lastName\", \"value\": null \x7d] \x7d",
    "        ]",
    "      \x7d,",
    "      \x7b \"in\": \x7b \"column\": \"c.Section\", \"values\": [\x7b \"char\": \"A\" \x7d, \x7b \"char\": \"B\" \x7d] \x7d \x7d",
    "    ]",
    "  \x7d,",
    "  \"order_by\": [\"s.LastName\", \"s.FirstName\"]",
    "\x7d"]

def documentText : String :=
  String.join (documentLines.map (· ++ "\n"))

end SqlSelect.Demo
